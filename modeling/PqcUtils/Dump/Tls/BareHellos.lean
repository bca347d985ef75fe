import PqcUtils.Dump.Recording
import PqcUtils.Dump.Tls.Reading
import PqcUtils.Wire.BareHello

/-!
# Hellos without extensions

Both parsers read the length of the extensions. Of a hello that ends in front of
it, the client hello parser makes an error and the server hello parser a panic,
so nothing of it is recorded.
-/

namespace PqcUtils.Dump

open Bytes Wire

/-- The hello is an initial part of one with an empty block, which is two bytes longer. -/
theorem parseSslV3ClientHello_bare {hello : BareHello} {suites : List UInt16}
    {compressionMethods : Bytes} {fits : 2 * suites.length < 2 ^ 16}
    {fits' : compressionMethods.length < 2 ^ 8}
    (client : hello.fields = .client suites compressionMethods fits fits') :
    ∃ error, parseSslV3ClientHello hello.encode = .err error := by
  let vectors : HelloVectors := {
    sessionId := hello.sessionId
    cipherSuites := suites
    compressionMethods
    extensionBytes := []
    fits_sessionId := hello.fits_sessionId
    fits_cipherSuites := fits
    fits_compressionMethods := fits'
    fits_extensions := Nat.two_pow_pos 16 }
  have whole : hello.front ++ (vectors.encode ++ []) = hello.encode ++ vector16 [] := by
    simp [BareHello.encode, client, BareFields.encode, HelloVectors.encode, vectors]
  have total := congrArg List.length whole
  simp only [List.length_append, hello.length_front, List.length_nil, length_vector16] at total
  rcases parseHelloHead_of_isPrefix vectors hello.length_front ⟨vector16 [], whole.symm⟩ with
    ⟨-, error, rejected⟩ | ⟨_, _, long, -, -⟩
  · exact ⟨error, by rw [parseSslV3ClientHello, rejected, Outcome.err_bind]⟩
  · omega

theorem parseServerHelloV3_bare {hello : BareHello} {suite : UInt16} {compression : UInt8}
    (server : hello.fields = .server suite compression) :
    parseServerHelloV3 hello.encode = .panic := by
  have before : ServerHelloBefore hello.encode suite [] :=
    ⟨hello.front, hello.sessionId, compression, hello.length_front, hello.fits_sessionId, by
      simp [BareHello.encode, server, BareFields.encode]⟩
  have handshakeType := hello.handshakeType_encode
  rw [server] at handshakeType
  exact parseServerHelloV3_of_short before handshakeType (Nat.two_pos)

/-- The call completes, and then the suites of the hello stand under the key of its sender. -/
def RecordsSuites (packet : SlicedPacket) (tcp : TcpSlice) (store : TlsStore)
    (hello : BareHello) : Prop :=
  ∃ after, processSslHello packet hello.encode tcp store = some after ∧
    ∀ suite ∈ hello.fields.cipherSuites, suite ∈ valuesAt after.tlsCiphers (packet.tlsKey tcp)

/-- The suites were known before, and the hello is one of a client. -/
theorem recordsSuites_iff (packet : SlicedPacket) (tcp : TcpSlice) (store : TlsStore)
    (hello : BareHello) :
    RecordsSuites packet tcp store hello ↔ hello.fields.handshakeType = 0x01 ∧
      ∀ suite ∈ hello.fields.cipherSuites,
        suite ∈ valuesAt store.tlsCiphers (packet.tlsKey tcp) := by
  have handshakeType := hello.handshakeType_encode
  cases fields : hello.fields with
  | client suites compressionMethods fits fits' =>
    obtain ⟨error, rejected⟩ := parseSslV3ClientHello_bare fields
    rw [fields] at handshakeType
    have unchanged : processSslHello packet hello.encode tcp store = some store := by
      simp [processSslHello, handshakeType, BareFields.handshakeType, rejected]
    simp [RecordsSuites, unchanged, fields, BareFields.handshakeType]
  | server suite compression =>
    rw [fields] at handshakeType
    have panics : processSslHello packet hello.encode tcp store = none := by
      simp [processSslHello, handshakeType, BareFields.handshakeType,
        parseServerHelloV3_bare fields]
    simp [RecordsSuites, panics, BareFields.handshakeType]

theorem oneSuite_fits : 2 * ([0x002f] : List UInt16).length < 2 ^ 16 := by decide

theorem noCompression_fits : ([0] : Bytes).length < 2 ^ 8 := by decide

def bareClientHello : BareHello :=
  smallBareHello (.client [0x002f] [0] oneSuite_fits noCompression_fits) 41

def bareServerHello : BareHello := smallBareHello (.server 0x002f 0) 38

def barePacket (sourcePort destinationPort : UInt16) (hello : BareHello) : SlicedPacket :=
  let host : Net.Ipv4Addr := ⟨127, 0, 0, 1⟩
  ⟨some (.ipv4 host host), some (.tcp ⟨sourcePort, destinationPort, 0, hello.encode⟩)⟩

/-- The suite of the client is not recorded, and the answer ends the analysis. -/
theorem bare_hellos_lost :
    isTlsHandshake bareClientHello.encode ∧ isTlsHandshake bareServerHello.encode ∧
      ¬RecordsSuites (barePacket 50000 443 bareClientHello)
        ⟨50000, 443, 0, bareClientHello.encode⟩ .empty bareClientHello ∧
      parseServerHelloV3 bareServerHello.encode = .panic ∧
      ¬RecordsSuites (barePacket 443 50000 bareServerHello)
        ⟨443, 50000, 0, bareServerHello.encode⟩ .empty bareServerHello := by
  have panics : parseServerHelloV3 bareServerHello.encode = .panic := parseServerHelloV3_bare rfl
  obtain ⟨error, rejected⟩ : ∃ error, parseSslV3ClientHello bareClientHello.encode = .err error :=
    parseSslV3ClientHello_bare rfl
  refine ⟨by decide, by decide, ?_, panics, ?_⟩
  · rintro ⟨after, taken, recorded⟩
    have found : bareClientHello.encode[5]? = some 0x01 := bareClientHello.handshakeType_encode
    simp only [processSslHello, found, rejected, Option.bind_eq_bind, Option.bind_some, if_true,
      Option.some.injEq] at taken
    subst taken
    have nothing := recorded 0x002f (by decide)
    simp [valuesAt, TlsStore.empty] at nothing
  · rintro ⟨after, taken, -⟩
    have found : bareServerHello.encode[5]? = some 0x02 := bareServerHello.handshakeType_encode
    simp [processSslHello, found, panics] at taken

end PqcUtils.Dump

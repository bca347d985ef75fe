import PqcUtils.Wire.Hello

/-!
# The TLS server hello

A server hello as it stands on the wire. A hello retry request has the same form;
its key share extension names the group it asks for and holds no key.
-/

namespace PqcUtils.Wire

open Bytes

structure ServerHello where
  version : UInt16
  random : Bytes
  sessionId : Bytes
  cipherSuite : UInt16
  compressionMethod : UInt8
  extensions : List Tagged
  length_random : random.length = 32
  fits_sessionId : sessionId.length < 2 ^ 8
  fits_extension : ∀ extension ∈ extensions, extension.Fits
  fits_extensions : (extensions.flatMap Tagged.encode).length < 2 ^ 16

namespace ServerHello

def extensionBytes (hello : ServerHello) : Bytes := hello.extensions.flatMap Tagged.encode

def body (hello : ServerHello) : Bytes :=
  ofUInt16 hello.version ++ hello.random ++ (vector8 hello.sessionId ++
    (ofUInt16 hello.cipherSuite ++ (hello.compressionMethod :: vector16 hello.extensionBytes)))

def record (hello : ServerHello) (minor : UInt8) : Bytes :=
  [0x16, 0x03, minor] ++ ofUInt16 (.ofNat (hello.body.length + 4)) ++
    ([0x02, 0x00] ++ ofUInt16 (.ofNat hello.body.length)) ++ hello.body

/-- Behind nine bytes of headers, and whatever follows it, the message reads as a hello with all
its extensions. -/
theorem upTo_body (hello : ServerHello) {headers : Bytes} (nine : headers.length = 9)
    (rest : Bytes) :
    ServerHelloUpTo (headers ++ hello.body ++ rest) hello.cipherSuite
      (.ofNat hello.extensionBytes.length) (hello.extensionBytes ++ rest) := by
  refine ⟨headers ++ (ofUInt16 hello.version ++ hello.random), hello.sessionId,
    hello.compressionMethod, by simp [nine, hello.length_random], hello.fits_sessionId, ?_⟩
  simp [body, vector16]

theorem upTo_record (hello : ServerHello) (minor : UInt8) (rest : Bytes) :
    ServerHelloUpTo (hello.record minor ++ rest) hello.cipherSuite
      (.ofNat hello.extensionBytes.length) (hello.extensionBytes ++ rest) :=
  hello.upTo_body (by simp) rest

theorem split_extensionBytes (hello : ServerHello) :
    Tagged.split hello.extensionBytes = (hello.extensions, []) :=
  Tagged.split_flatMap hello.fits_extension

theorem take_extensionBytes (hello : ServerHello) (rest : Bytes) :
    (UInt16.ofNat hello.extensionBytes.length).toNat = hello.extensionBytes.length ∧
      (hello.extensionBytes ++ rest).take hello.extensionBytes.length = hello.extensionBytes :=
  ⟨UInt16.toNat_ofNat_of_lt' hello.fits_extensions, List.take_left⟩

theorem chooses_record_iff (hello : ServerHello) (minor : UInt8) (rest : Bytes)
    {group : UInt16} :
    Chooses (hello.record minor ++ rest) group ↔
      ∃ extension, lastKeyShares hello.extensions = some extension ∧
        (Tagged.split extension.content).1.map Tagged.tag = [group] := by
  obtain ⟨number, block⟩ := hello.take_extensionBytes rest
  rw [chooses_iff_of_complete (hello.upTo_record minor rest) (by simp [number]), number, block,
    hello.split_extensionBytes]

def chosenGroup (hello : ServerHello) : Option UInt16 :=
  (lastKeyShares hello.extensions).bind fun extension =>
    match (Tagged.split extension.content).1 with
    | [share] => some share.tag
    | _ => none

end ServerHello

/-- A server hello behind any headers of their sizes, with at most one extension that holds key
shares, and that one with a single share. -/
structure AnsweredHello extends ServerHello where
  recordHeader : Bytes
  handshakeLength : Bytes
  share : Option Tagged
  length_recordHeader : recordHeader.length = 5
  length_handshakeLength : handshakeLength.length = 3
  single : (extensions.filter fun extension => extension.tag = keyShareType) =
    share.toList.map fun share => ⟨keyShareType, share.encode⟩

namespace AnsweredHello

def encode (hello : AnsweredHello) : Bytes :=
  hello.recordHeader ++ (0x02 :: hello.handshakeLength) ++ hello.body

def group (hello : AnsweredHello) : Option UInt16 := hello.share.map Tagged.tag

theorem lastKeyShares_extensions (hello : AnsweredHello) :
    lastKeyShares hello.extensions =
      hello.share.map fun share => ⟨keyShareType, share.encode⟩ := by
  rw [lastKeyShares, hello.single]
  cases hello.share <;> rfl

theorem fits_share (hello : AnsweredHello) {share : Tagged} (isShare : hello.share = some share) :
    share.Fits := by
  have among : ⟨keyShareType, share.encode⟩ ∈
      hello.extensions.filter fun extension => extension.tag = keyShareType := by
    rw [hello.single, isShare]
    simp
  have fits := hello.fits_extension _ (List.mem_filter.mp among).1
  rw [Tagged.Fits, Tagged.length_encode] at fits
  rw [Tagged.Fits]
  omega

end AnsweredHello

/-- A hello without extensions, as it is sent before version 1.3. -/
def plainServerHello : ServerHello where
  version := 0x0303
  random := List.replicate 32 0
  sessionId := []
  cipherSuite := 0x1301
  compressionMethod := 0
  extensions := []
  length_random := length_zeros
  fits_sessionId := Nat.two_pow_pos 8
  fits_extension _ membership := absurd membership List.not_mem_nil
  fits_extensions := Nat.two_pow_pos 16

theorem not_answers_plainServerHello (minor : UInt8) (group : UInt16) :
    ¬Answers (plainServerHello.record minor) group := by
  rintro ⟨suite, length, rest, upTo, -, extension, inBlock, -⟩
  have whole := plainServerHello.upTo_record minor []
  simp only [List.append_nil] at whole
  obtain ⟨-, -, rfl⟩ := upTo.unique whole
  have nothing : plainServerHello.extensionBytes = [] := rfl
  rw [nothing, List.take_nil, Tagged.split_eq_of_short (by decide)] at inBlock
  simp at inBlock

def smallServerHello (content : Bytes) (short : content.length < 2 ^ 8) : ServerHello where
  version := 0x0303
  random := List.replicate 32 0
  sessionId := []
  cipherSuite := 0x1301
  compressionMethod := 0
  extensions := [⟨keyShareType, content⟩]
  length_random := length_zeros
  fits_sessionId := Nat.two_pow_pos 8
  fits_extension := by
    simp only [List.mem_singleton, forall_eq, Tagged.Fits]
    omega
  fits_extensions := by
    simp only [List.flatMap_singleton, Tagged.length_encode]
    omega

theorem chooses_smallServerHello_iff {content : Bytes} {short : content.length < 2 ^ 8}
    (minor : UInt8) {group : UInt16} :
    Chooses ((smallServerHello content short).record minor) group ↔
      (Tagged.split content).1.map Tagged.tag = [group] := by
  rw [← List.append_nil (ServerHello.record _ _), ServerHello.chooses_record_iff]
  simp [smallServerHello, lastKeyShares]

def answer : ServerHello := smallServerHello (Tagged.encode ⟨0x001d, [9]⟩) (by decide)

/-- The request to retry with the group 0x001d. -/
def retryRequest : ServerHello := smallServerHello (ofUInt16 0x001d) (by decide)

theorem chooses_answer (minor : UInt8) : Chooses (answer.record minor) 0x001d := by
  have single : Tagged.split (Tagged.encode ⟨0x001d, [9]⟩) = ([⟨0x001d, [9]⟩], []) := by
    have fits : ∀ item ∈ [(⟨0x001d, [9]⟩ : Tagged)], item.Fits := by decide
    simpa using Tagged.split_flatMap fits
  exact (chooses_smallServerHello_iff minor).mpr (by rw [single]; rfl)

theorem not_chooses_retryRequest (minor : UInt8) (group : UInt16) :
    ¬Chooses (retryRequest.record minor) group := by
  rw [retryRequest, chooses_smallServerHello_iff, Tagged.split_eq_of_short (by decide)]
  simp

end PqcUtils.Wire

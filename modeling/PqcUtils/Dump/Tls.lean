import PqcUtils.Dump.Packet

/-!
# TLS hellos in a capture

`process_ssl_hello` records the cipher suites and key share groups of client and
server hellos under the endpoint that sent them. The parsers walk the payload by
offset; each loop of theirs is a function of its own. A read out of range panics.
-/

namespace PqcUtils.Dump

open Bytes Net

/-! ## Client hellos -/

structure CryptoConfig where
  ciphers : List UInt16
  keyshareGroups : List UInt16
  deriving DecidableEq, Repr

/-- The loop over the cipher suites. -/
def readCipherSuites (data : Bytes) : Nat → Nat → Outcome String (List UInt16 × Nat)
  | 0, offset => pure ([], offset)
  | count + 1, offset => do
    let cs ← index16 data offset
    let (cipherSuites, offset) ← readCipherSuites data count (offset + 2)
    pure (cs :: cipherSuites, offset)

/-- Where the extensions of a client hello stand, and what was read before them. -/
structure HelloHead where
  ciphers : List UInt16
  offset : Nat
  extensionsEnd : Nat
  deriving DecidableEq, Repr

/-- `parse_ssl_v3_client_hello` up to its loop over the extensions. -/
def parseHelloHead (data : Bytes) : Outcome String HelloHead := do
  let offset := 9
  Outcome.rejectIf (data.length < 34) "Data too short for ProtocolVersion and Random"
  let offset := offset + 34
  Outcome.rejectIf (data.length ≤ offset) "Data too short for SessionID length"
  let sessionIdLen ← index data offset
  let offset := offset + 1
  Outcome.rejectIf (data.length < offset + sessionIdLen.toNat) "Data too short for SessionID"
  let offset := offset + sessionIdLen.toNat
  Outcome.rejectIf (data.length < offset + 2) "Data too short for CipherSuites length"
  let cipherSuitesLen ← index16 data offset
  let offset := offset + 2
  Outcome.rejectIf (data.length < offset + cipherSuitesLen.toNat)
    "Data too short for CipherSuites data"
  -- A step for every second number below the length, so an odd length is rounded up.
  let (cipherSuites, offset) ← readCipherSuites data ((cipherSuitesLen.toNat + 1) / 2) offset
  Outcome.rejectIf (data.length ≤ offset) "Data too short for compression methods length"
  let compLen ← index data offset
  let offset := offset + (1 + compLen.toNat)
  Outcome.rejectIf (data.length < offset + 2) "Data too short for extensions length"
  let extensionsLen ← index16 data offset
  let offset := offset + 2
  Outcome.rejectIf (data.length < offset + extensionsLen.toNat)
    "Data too short for extensions data"
  pure ⟨cipherSuites, offset, offset + extensionsLen.toNat⟩

def readKeyShares (data : Bytes) (stop ksOffset : Nat) : Outcome String (List UInt16) :=
  if ksOffset + 4 ≤ stop then do
    let group ← index16 data ksOffset
    let keyExchangeLen ← index16 data (ksOffset + 2)
    let next := ksOffset + 4 + keyExchangeLen.toNat
    Outcome.rejectIf (stop < next) "KeyShare key_exchange data too short"
    let groups ← readKeyShares data stop next
    pure (group :: groups)
  else
    pure []
termination_by stop - ksOffset

/-- The loop over the extensions of a client hello. -/
def readExtensions (data : Bytes) (extensionsEnd offset : Nat) : Outcome String (List UInt16) :=
  if offset + 4 ≤ extensionsEnd then do
    let extType ← index16 data offset
    let extLen ← index16 data (offset + 2)
    let payload := offset + 4
    let next := payload + extLen.toNat
    Outcome.rejectIf (extensionsEnd < next) "Extension length goes beyond extensions block"
    let keyshareGroups ←
      if extType = 0x0033 then do
        Outcome.rejectIf (extLen.toNat < 2) "KeyShare extension too short"
        readKeyShares data next (payload + 2)
      else
        pure []
    let more ← readExtensions data extensionsEnd next
    pure (keyshareGroups ++ more)
  else
    pure []
termination_by extensionsEnd - offset

def parseSslV3ClientHello (data : Bytes) : Outcome String CryptoConfig := do
  let head ← parseHelloHead data
  let keyshareGroups ← readExtensions data head.extensionsEnd head.offset
  pure ⟨head.ciphers, keyshareGroups⟩

/-! ## Server hellos -/

structure KeyShareEntry where
  group : UInt16
  keyExchange : Bytes
  deriving DecidableEq, Repr

structure SessionConfig where
  ciphers : List UInt16
  keyshare : UInt16
  deriving DecidableEq, Repr

/-- The loop of `parse_signature_algorithms`, whose only effect is a log entry. -/
def readSignatureAlgorithms (data : Bytes) (stop pos : Nat) : Outcome String Unit :=
  if pos + 2 ≤ stop then do
    let _ ← index16 data pos
    readSignatureAlgorithms data stop (pos + 2)
  else
    pure ()
termination_by stop - pos

def parseSignatureAlgorithms (data : Bytes) : Outcome String Unit :=
  if data.length < 2 then
    pure ()
  else do
    let listLen ← index16 data 0
    if data.length < 2 + listLen.toNat then
      pure ()
    else
      readSignatureAlgorithms data (2 + listLen.toNat) 2

def readKeyShareEntries (data : Bytes) (offset : Nat) : Outcome String (List KeyShareEntry) :=
  if offset + 4 ≤ data.length then do
    let group ← index16 data offset
    let keyLen ← index16 data (offset + 2)
    let start := offset + 4
    if data.length < start + keyLen.toNat then
      pure []
    else do
      let keyExchange ← slice data start (start + keyLen.toNat)
      let entries ← readKeyShareEntries data (start + keyLen.toNat)
      pure (⟨group, keyExchange⟩ :: entries)
  else
    pure []
termination_by data.length - offset

def parseKeyShare (data : Bytes) : Outcome String (List KeyShareEntry) :=
  if data.length < 2 then pure [] else readKeyShareEntries data 0

/-- The loop of `parse_extensions`. A later key share extension replaces an earlier one. -/
def parseExtensionsFrom (extensions : Bytes) (pos : Nat) (keyShareEntries : List KeyShareEntry) :
    Outcome String (List KeyShareEntry) :=
  if pos + 4 ≤ extensions.length then do
    let extType ← index16 extensions pos
    let extLen ← index16 extensions (pos + 2)
    let start := pos + 4
    let next := start + extLen.toNat
    let keyShareEntries ←
      if extType = 0x0033 then do
        let data ← slice extensions start next
        parseKeyShare data
      else
        pure keyShareEntries
    let _ ←
      if extType = 0x000d then do
        let data ← slice extensions start next
        parseSignatureAlgorithms data
      else
        pure ()
    parseExtensionsFrom extensions next keyShareEntries
  else
    pure keyShareEntries
termination_by extensions.length - pos

def parseExtensions (extensions : Bytes) : Outcome String (List KeyShareEntry) :=
  parseExtensionsFrom extensions 0 []

def singleGroup : List KeyShareEntry → Option UInt16
  | [entry] => some entry.group
  | _ => none

def parseServerHelloV3 (payload : Bytes) : Outcome String SessionConfig := do
  Outcome.rejectIf (payload.length < 5 + 4 + 38) "Payload too short for ServerHello"
  let handshakeStart := 5
  let handshakeType ← index payload handshakeStart
  Outcome.rejectIf (handshakeType ≠ 0x02) "Not a ServerHello handshake"
  let pos := handshakeStart + 4 + 2 + 32
  let sessionIdLen ← index payload pos
  let pos := pos + 1
  Outcome.rejectIf (payload.length < pos + sessionIdLen.toNat + 3)
    "Payload too short for Session ID"
  let pos := pos + sessionIdLen.toNat
  let cipherSuite ← slice payload pos (pos + 2)
  let cipherCode ← index16 cipherSuite 0
  let pos := pos + 2 + 1
  let extensionsLen ← index16 payload pos
  let pos := pos + 2
  let keyshare ←
    if payload.length < pos + extensionsLen.toNat then
      pure none
    else do
      let extensions ← slice payload pos (pos + extensionsLen.toNat)
      let keyShareEntries ← parseExtensions extensions
      pure (singleGroup keyShareEntries)
  pure ⟨[cipherCode], keyshare.getD 0⟩

/-! ## The store -/

structure TlsSessionKey where
  srcIp : IpAddr
  srcPort : UInt16
  dstIp : IpAddr
  dstPort : UInt16
  deriving DecidableEq, Repr

structure TlsStore where
  tlsCiphers : HashMap String (Finset UInt16)
  keyshareGroups : HashMap String (Finset UInt16)
  tlsSessions : HashMap TlsSessionKey UInt16

def TlsStore.empty : TlsStore := ⟨∅, ∅, ∅⟩

def insertAt (map : HashMap String (Finset UInt16)) (key : String) (val : UInt16) :
    HashMap String (Finset UInt16) :=
  map.update key ∅ (insert val)

/-- One `insertAt` for each value; without values the key is not put in. -/
def insertAllAt (map : HashMap String (Finset UInt16)) (key : String) (vals : List UInt16) :
    HashMap String (Finset UInt16) :=
  vals.foldl (fun map val => insertAt map key val) map

/-- The key of a sender: its address and port with a colon between them. -/
def tlsKey (ip : IpAddr) (port : UInt16) : String := ip.display ++ ":" ++ toString port.toNat

def SlicedPacket.tlsKey (packet : SlicedPacket) (tcp : TcpSlice) : String :=
  match packet.addresses with
  | some (source, _) => Dump.tlsKey source tcp.sourcePort
  | none => "unknown:0"

/-- The key of a session: the receiver of the server's packet, then its sender. -/
def SlicedPacket.tlsSessionKey (packet : SlicedPacket) (tcp : TcpSlice) : Option TlsSessionKey :=
  match packet.addresses with
  | some (source, destination) =>
    some ⟨destination, tcp.destinationPort, source, tcp.sourcePort⟩
  | none => none

/-- `process_ssl_hello`; `none` if it panics. -/
def processSslHello (packet : SlicedPacket) (payload : Bytes) (tcp : TcpSlice)
    (store : TlsStore) : Option TlsStore := do
  let handshakeType ← payload[5]?
  let key := packet.tlsKey tcp
  if handshakeType = 0x01 then
    match parseSslV3ClientHello payload with
    | .panic => none
    | .err _ => some store
    | .ok result =>
      some { store with
        tlsCiphers := insertAllAt store.tlsCiphers key result.ciphers
        keyshareGroups := insertAllAt store.keyshareGroups key result.keyshareGroups }
  else if handshakeType = 0x02 then
    match parseServerHelloV3 payload with
    | .panic => none
    | .err _ => some store
    | .ok result => do
      let sessionKey ← packet.tlsSessionKey tcp
      some {
        tlsSessions := Finmap.insert sessionKey result.keyshare store.tlsSessions
        keyshareGroups := insertAt store.keyshareGroups key result.keyshare
        tlsCiphers := insertAllAt store.tlsCiphers key result.ciphers }
  else
    some store

end PqcUtils.Dump

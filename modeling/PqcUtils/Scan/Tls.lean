import PqcUtils.Scan.Result
import PqcUtils.Library.HashMap
import PqcUtils.Library.Text
import Mathlib.Data.Vector.Basic

/-!
# The TLS probe

The probe connects once for each group of its table that is to be tested and
sends a client hello with that group. The hello is put together by
`ClientHelloBuilder`; its length fields are counted as it grows, in sixteen bits
that wrap.
-/

namespace PqcUtils.Scan

open Bytes Text

/-! ## Extensions -/

/-- What `?` returns for a number that does not fit its field. -/
def tryFromIntError : String := "out of range integral type conversion attempted"

def tryIntoU16 (n : Nat) : Outcome String UInt16 :=
  if n < 2 ^ 16 then .ok (.ofNat n) else .err tryFromIntError

def tryIntoU8 (n : Nat) : Outcome String UInt8 :=
  if n < 2 ^ 8 then .ok (.ofNat n) else .err tryFromIntError

theorem tryIntoU16_eq_ok_iff {n : Nat} {value : UInt16} :
    tryIntoU16 n = .ok value ↔ n < 2 ^ 16 ∧ value = .ofNat n := by
  unfold tryIntoU16
  split
  · next fits => simp only [Outcome.ok.injEq, fits, true_and, eq_comm]
  · next tooLarge => simp only [reduceCtorEq, tooLarge, false_and]

theorem tryIntoU8_eq_ok_iff {n : Nat} {value : UInt8} :
    tryIntoU8 n = .ok value ↔ n < 2 ^ 8 ∧ value = .ofNat n := by
  unfold tryIntoU8
  split
  · next fits => simp only [Outcome.ok.injEq, fits, true_and, eq_comm]
  · next tooLarge => simp only [reduceCtorEq, tooLarge, false_and]

structure KeyShareEntry where
  group : UInt16
  exchangeLen : UInt16
  exchange : Bytes
  deriving DecidableEq, Repr

/-- `exchange.len() as u16` cuts the length. -/
def KeyShareEntry.new (group : UInt16) (exchange : Bytes) : KeyShareEntry :=
  ⟨group, .ofNat exchange.length, exchange⟩

structure Extension where
  extType : UInt16
  extLen : UInt16
  payload : Bytes
  deriving DecidableEq, Repr

namespace Extension

/-- An extension whose length is `buf.len().try_into()?`. -/
def ofBuf (extType : UInt16) (buf : Bytes) : Outcome String Extension := do
  let extLen ← tryIntoU16 buf.length
  pure ⟨extType, extLen, buf⟩

def ofNumbers (extType : UInt16) (numbers : List UInt16) : Outcome String Extension := do
  let len ← tryIntoU16 (numbers.length * 2)
  ofBuf extType (ofUInt16 len ++ numbers.flatMap ofUInt16)

def serverName (hostname : String) : Outcome String Extension := do
  let hb := toUtf8 hostname
  let hblen ← tryIntoU16 hb.length
  ofBuf 0 (ofUInt16 (hblen + 3) ++ 0 :: (ofUInt16 hblen ++ hb))

def supportedVersions : Outcome String Extension :=
  .ok ⟨43, 3, 2 :: ofUInt16 0x0304⟩

def recordSizeLimit (limit : UInt16) : Outcome String Extension :=
  .ok ⟨28, 2, ofUInt16 limit⟩

def supportedGroups (groups : List UInt16) : Outcome String Extension := ofNumbers 10 groups

def signatureAlgorithms (algos : List UInt16) : Outcome String Extension := ofNumbers 13 algos

def emptyExtension (extType : UInt16) : Outcome String Extension := .ok ⟨extType, 0, []⟩

def signedCertificateTimestamp : Outcome String Extension := emptyExtension 18

def extendedMasterSecret : Outcome String Extension := emptyExtension 23

def compressCertificate : Outcome String Extension :=
  ofBuf 27 (6 :: (ofUInt16 0x1 ++ ofUInt16 0x2 ++ ofUInt16 0x3))

def renegotiationInfo : Outcome String Extension := ofBuf 65281 [0]

def ecPointFormats : Outcome String Extension := ofBuf 11 [1, 0]

def statusRequest : Outcome String Extension := .ok ⟨5, 5, [1, 0, 0, 0, 0]⟩

def keyShare (keyshares : List KeyShareEntry) : Outcome String Extension := do
  let keyshareLen := keyshares.foldl (fun len keyshare => len + keyshare.exchangeLen + 4) 0
  ofBuf 51 (ofUInt16 keyshareLen ++ keyshares.flatMap fun keyshare =>
    ofUInt16 keyshare.group ++ ofUInt16 keyshare.exchangeLen ++ keyshare.exchange)

def encode (extension : Extension) : Bytes :=
  ofUInt16 extension.extType ++ ofUInt16 extension.extLen ++ extension.payload

end Extension

/-! ## The client hello -/

structure ClientHelloBuilder where
  legacyVersion : UInt16
  random : List.Vector UInt8 32
  sessionId : Bytes
  cipherSuites : List UInt16
  compressionMethods : Bytes
  extensionsLen : UInt16
  extensions : List Extension

namespace ClientHelloBuilder

/-- `new` with the bytes the random number generator fills in. -/
def new (random sessionId : List.Vector UInt8 32) : ClientHelloBuilder :=
  ⟨0x0303, random, sessionId.toList, [], [], 0, []⟩

def addExtension (builder : ClientHelloBuilder) (extension : Extension) : ClientHelloBuilder :=
  { builder with
    extensionsLen := builder.extensionsLen + extension.extLen + 4
    extensions := builder.extensions ++ [extension] }

def addCompressionMethod (builder : ClientHelloBuilder) (method : UInt8) : ClientHelloBuilder :=
  { builder with compressionMethods := builder.compressionMethods ++ [method] }

def addCipherSuite (builder : ClientHelloBuilder) (cipherSuite : UInt16) : ClientHelloBuilder :=
  { builder with cipherSuites := builder.cipherSuites ++ [cipherSuite] }

def intoBuf (builder : ClientHelloBuilder) : Outcome String Bytes := do
  let sessionIdLen ← tryIntoU8 builder.sessionId.length
  let cslen ← tryIntoU16 (builder.cipherSuites.length * 2)
  let cmlen ← tryIntoU8 builder.compressionMethods.length
  let buf := ofUInt16 builder.legacyVersion ++ builder.random.toList ++
    (sessionIdLen :: builder.sessionId) ++
    (ofUInt16 cslen ++ builder.cipherSuites.flatMap ofUInt16) ++
    (cmlen :: builder.compressionMethods) ++
    (ofUInt16 builder.extensionsLen ++ builder.extensions.flatMap Extension.encode)
  let buflen ← tryIntoU16 buf.length
  pure ([22] ++ ofUInt16 0x0301 ++ ofUInt16 (buflen + 4) ++ [1, 0] ++ ofUInt16 buflen ++ buf)

end ClientHelloBuilder

/-! ## The scan -/

structure TlsGroup where
  groupId : UInt16
  pqc : Bool
  hybrid : Bool
  deriving DecidableEq, Repr

/-- What one group brings: an error from connecting, or an address and a handshake. -/
abbrev GroupAttempt := Except String (String × Except String Unit)

def groupsToTest (hybridAlgosOnly scanNonpqcAlgos : Bool) (groups : List (String × TlsGroup)) :
    List (String × TlsGroup) :=
  groups.filter fun (_, group) =>
    !(hybridAlgosOnly && !group.hybrid) && (group.pqc || scanNonpqcAlgos)

structure TlsFindings where
  addr : Option String
  pqcSupported : Bool
  pqcAlgos : List String
  hybridAlgos : List String
  nonpqcAlgos : List String
  deriving DecidableEq, Repr

/-- A group the server accepted. -/
def TlsFindings.accept (findings : TlsFindings) (groupName : String) (group : TlsGroup) :
    TlsFindings :=
  if group.pqc && !group.hybrid then
    { findings with pqcSupported := true, pqcAlgos := findings.pqcAlgos ++ [groupName] }
  else if group.pqc then
    { findings with pqcSupported := true, hybridAlgos := findings.hybridAlgos ++ [groupName] }
  else
    { findings with nonpqcAlgos := findings.nonpqcAlgos ++ [groupName] }

/-- The loop over the groups. The first address is kept; a failed connection ends the scan. -/
def testGroups (target : Target) (attempt : String → TlsGroup → GroupAttempt) :
    List (String × TlsGroup) → TlsFindings → ScanResult
  | [], findings =>
    .tls target findings.addr none findings.pqcSupported (some findings.pqcAlgos)
      (some findings.hybridAlgos) (some findings.nonpqcAlgos)
  | (groupName, group) :: groups, findings =>
    match attempt groupName group with
    | .error error => .tls target none (some error) false none none none
    | .ok (addr, handshake) =>
      let findings := { findings with addr := some (findings.addr.getD addr) }
      match handshake with
      | .ok () => testGroups target attempt groups (findings.accept groupName group)
      | .error _ => testGroups target attempt groups findings

/-- `tls_scan_target` for what connecting with each group brings. -/
def tlsScanTarget (groups : List (String × TlsGroup)) (target : Target)
    (hybridAlgosOnly scanNonpqcAlgos : Bool) (attempt : String → TlsGroup → GroupAttempt) :
    ScanResult :=
  testGroups target attempt (groupsToTest hybridAlgosOnly scanNonpqcAlgos groups)
    ⟨none, false, [], [], []⟩

end PqcUtils.Scan

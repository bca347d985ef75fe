import PqcUtils.Library.Runs
import PqcUtils.Scan.Tls
import PqcUtils.Wire.ClientHello

/-!
# The builder writes the wire format

Every extension the constructors make is an extension of the wire format, with a
length that is the one of its payload. The builder counts the lengths modulo
2^16; when the whole message fits its length field nothing has wrapped, and what
`into_buf` returns is a client hello in a record.
-/

namespace PqcUtils.Scan

open Bytes Text

/-! ## Calls -/

/-- A call of one of the constructors of `Extension`. -/
inductive ExtensionCall where
  | serverName (hostname : String)
  | supportedVersions
  | recordSizeLimit (limit : UInt16)
  | supportedGroups (groups : List UInt16)
  | signatureAlgorithms (algos : List UInt16)
  | emptyExtension (extType : UInt16)
  | signedCertificateTimestamp
  | extendedMasterSecret
  | compressCertificate
  | renegotiationInfo
  | ecPointFormats
  | statusRequest
  | keyShare (shares : List (UInt16 × Bytes))
  deriving DecidableEq, Repr

namespace ExtensionCall

def make : ExtensionCall → Outcome String Extension
  | serverName hostname => Extension.serverName hostname
  | supportedVersions => Extension.supportedVersions
  | recordSizeLimit limit => Extension.recordSizeLimit limit
  | supportedGroups groups => Extension.supportedGroups groups
  | signatureAlgorithms algos => Extension.signatureAlgorithms algos
  | emptyExtension extType => Extension.emptyExtension extType
  | signedCertificateTimestamp => Extension.signedCertificateTimestamp
  | extendedMasterSecret => Extension.extendedMasterSecret
  | compressCertificate => Extension.compressCertificate
  | renegotiationInfo => Extension.renegotiationInfo
  | ecPointFormats => Extension.ecPointFormats
  | statusRequest => Extension.statusRequest
  | keyShare shares => Extension.keyShare (shares.map fun share => .new share.1 share.2)

def groups : ExtensionCall → List UInt16
  | keyShare shares => shares.map Prod.fst
  | _ => []

end ExtensionCall

inductive BuilderCall where
  | addCipherSuite (cipherSuite : UInt16)
  | addCompressionMethod (method : UInt8)
  | addExtension (extension : ExtensionCall)
  deriving DecidableEq, Repr

namespace BuilderCall

def cipherSuites : BuilderCall → List UInt16
  | addCipherSuite cipherSuite => [cipherSuite]
  | addCompressionMethod _ => []
  | addExtension _ => []

def groups : BuilderCall → List UInt16
  | addCipherSuite _ => []
  | addCompressionMethod _ => []
  | addExtension extension => extension.groups

end BuilderCall

/-- One call; there is no next builder if the constructor fails. -/
def ClientHelloBuilder.call (builder : ClientHelloBuilder) : BuilderCall → Option ClientHelloBuilder
  | .addCipherSuite cipherSuite => some (builder.addCipherSuite cipherSuite)
  | .addCompressionMethod method => some (builder.addCompressionMethod method)
  | .addExtension extension =>
    match extension.make with
    | .ok extension => some (builder.addExtension extension)
    | _ => none

def buildHello (random sessionId : List.Vector UInt8 32) (calls : List BuilderCall) :
    Option ClientHelloBuilder :=
  Runs.run ClientHelloBuilder.call (.new random sessionId) calls

/-! ## Extensions -/

/-- The fields are those of an extension on the wire, and its payload fits its length. -/
structure Extension.IsWire (extension : Extension) (wire : Wire.Extension) : Prop where
  number : extension.extType = wire.number
  payload : extension.payload = wire.payload
  length : extension.extLen = .ofNat wire.payload.length

theorem Extension.IsWire.encode {extension : Extension} {wire : Wire.Extension}
    (isWire : extension.IsWire wire) : extension.encode = wire.encode := by
  simp [Extension.encode, Wire.Extension.encode, vector16, isWire.number, isWire.payload,
    isWire.length]

theorem Extension.ofBuf_eq_ok_iff {extType : UInt16} {buf : Bytes} {extension : Extension} :
    ofBuf extType buf = .ok extension ↔
      buf.length < 2 ^ 16 ∧ extension = ⟨extType, .ofNat buf.length, buf⟩ := by
  simp only [ofBuf, Outcome.bind_eq_ok_iff, tryIntoU16_eq_ok_iff, Outcome.pure_eq_ok,
    Outcome.ok.injEq]
  constructor
  · rintro ⟨_, ⟨fits, rfl⟩, rfl⟩
    exact ⟨fits, rfl⟩
  · rintro ⟨fits, rfl⟩
    exact ⟨_, ⟨fits, rfl⟩, rfl⟩

def ExtensionCall.number : ExtensionCall → UInt16
  | serverName _ => 0
  | supportedVersions => 43
  | recordSizeLimit _ => 28
  | supportedGroups _ => 10
  | signatureAlgorithms _ => 13
  | emptyExtension extType => extType
  | signedCertificateTimestamp => 18
  | extendedMasterSecret => 23
  | compressCertificate => 27
  | renegotiationInfo => 65281
  | ecPointFormats => 11
  | statusRequest => 5
  | keyShare _ => 51

/-- Written out or computed, the length is the one of the payload. -/
theorem ExtensionCall.make_eq_ok {call : ExtensionCall} {extension : Extension}
    (made : call.make = .ok extension) :
    extension.extType = call.number ∧ extension.extLen = .ofNat extension.payload.length := by
  cases call with
  | serverName hostname =>
    simp only [make, Extension.serverName, Outcome.bind_eq_ok_iff,
      Extension.ofBuf_eq_ok_iff] at made
    obtain ⟨hblen, -, -, rfl⟩ := made
    exact ⟨rfl, rfl⟩
  | supportedGroups numbers | signatureAlgorithms numbers =>
    simp only [make, Extension.supportedGroups, Extension.signatureAlgorithms, Extension.ofNumbers,
      Outcome.bind_eq_ok_iff, Extension.ofBuf_eq_ok_iff] at made
    obtain ⟨len, -, -, rfl⟩ := made
    exact ⟨rfl, rfl⟩
  | compressCertificate | renegotiationInfo | ecPointFormats | keyShare shares =>
    obtain ⟨-, rfl⟩ := Extension.ofBuf_eq_ok_iff.mp made
    exact ⟨rfl, rfl⟩
  | supportedVersions | recordSizeLimit limit | emptyExtension extType
  | signedCertificateTimestamp | extendedMasterSecret | statusRequest =>
    cases made
    exact ⟨rfl, rfl⟩

def wireShares (shares : List (UInt16 × Bytes)) : List Wire.KeyShare :=
  shares.map fun share => ⟨share.1, share.2⟩

/-- The running sum of the lengths is the length of the entries, modulo 2^16. -/
theorem keyshareLen_eq (shares : List (UInt16 × Bytes)) (len : UInt16) :
    (shares.map fun share => KeyShareEntry.new share.1 share.2).foldl
        (fun len keyshare => len + keyshare.exchangeLen + 4) len =
      len + .ofNat ((wireShares shares).flatMap Wire.KeyShare.encode).length := by
  induction shares generalizing len with
  | nil => simp [wireShares]
  | cons share shares ih =>
    have length : ((wireShares (share :: shares)).flatMap Wire.KeyShare.encode).length =
        share.2.length + 4 + ((wireShares shares).flatMap Wire.KeyShare.encode).length := by
      simp [wireShares, Wire.KeyShare.encode, Nat.add_assoc]
      omega
    rw [List.map_cons, List.foldl_cons, ih, length, UInt16.ofNat_add, UInt16.ofNat_add,
      KeyShareEntry.new, ← UInt16.add_assoc, ← UInt16.add_assoc]
    rfl

theorem Extension.payload_keyShare {shares : List (UInt16 × Bytes)} {extension : Extension}
    (made : (ExtensionCall.keyShare shares).make = .ok extension) :
    extension.payload = (Wire.Extension.keyShare (wireShares shares)).payload := by
  obtain ⟨-, rfl⟩ := ofBuf_eq_ok_iff.mp made
  rw [Wire.Extension.payload, vector16, keyshareLen_eq, UInt16.zero_add]
  simp [wireShares, Wire.KeyShare.encode, KeyShareEntry.new, vector16, List.flatMap_map]

/-- Every constructor makes an extension of the wire format, unless it is asked for an empty one
under the number of the key shares. -/
theorem ExtensionCall.isWire_of_make {call : ExtensionCall} {extension : Extension}
    (made : call.make = .ok extension) (distinct : call ≠ .emptyExtension 51) :
    ∃ wire, extension.IsWire wire ∧ wire.groups = call.groups := by
  obtain ⟨number, length⟩ := make_eq_ok made
  by_cases keyShares : ∃ shares, call = .keyShare shares
  · obtain ⟨shares, rfl⟩ := keyShares
    have payload := Extension.payload_keyShare made
    rw [payload] at length
    refine ⟨.keyShare (wireShares shares), ⟨number, payload, length⟩, ?_⟩
    simp [Wire.Extension.groups, wireShares, groups, Function.comp_def]
  · have otherNumber : extension.extType ≠ Wire.keyShareType := by
      rw [number]
      cases call with
      | keyShare shares => exact absurd ⟨shares, rfl⟩ keyShares
      | emptyExtension extType => exact fun same => distinct (congrArg _ same)
      | _ => simp [ExtensionCall.number, Wire.keyShareType]
    have noGroups : call.groups = [] := by
      cases call with
      | keyShare shares => exact absurd ⟨shares, rfl⟩ keyShares
      | _ => rfl
    exact ⟨.other _ extension.payload otherNumber, ⟨rfl, rfl, length⟩, noGroups.symm⟩

/-! ## The builder -/

def WithoutEmptyKeyShare (calls : List BuilderCall) : Prop :=
  .addExtension (.emptyExtension 51) ∉ calls

/-- The builder after the calls. The counter is the length of the extensions, modulo 2^16. -/
structure BuiltBy (calls : List BuilderCall) (builder : ClientHelloBuilder) : Prop where
  cipherSuites : builder.cipherSuites = calls.flatMap BuilderCall.cipherSuites
  extensions : ∃ wires : List Wire.Extension,
    builder.extensions.flatMap Extension.encode = wires.flatMap Wire.Extension.encode ∧
    builder.extensionsLen = .ofNat (wires.flatMap Wire.Extension.encode).length ∧
    wires.flatMap Wire.Extension.groups = calls.flatMap BuilderCall.groups

theorem BuiltBy.addExtension {calls : List BuilderCall} {builder : ClientHelloBuilder}
    (built : BuiltBy calls builder) {call : ExtensionCall} {extension : Extension}
    (made : call.make = .ok extension) (distinct : call ≠ .emptyExtension 51) :
    BuiltBy (calls ++ [.addExtension call]) (builder.addExtension extension) := by
  obtain ⟨wire, isWire, groups⟩ := call.isWire_of_make made distinct
  obtain ⟨wires, bytes, counted, allGroups⟩ := built.extensions
  refine ⟨?_, wires ++ [wire], ?_, ?_, ?_⟩
  · simpa [ClientHelloBuilder.addExtension, BuilderCall.cipherSuites] using built.cipherSuites
  · simp only [ClientHelloBuilder.addExtension, List.flatMap_append, List.flatMap_singleton, bytes,
      isWire.encode]
  · have length : ((wires ++ [wire]).flatMap Wire.Extension.encode).length =
        (wires.flatMap Wire.Extension.encode).length + wire.payload.length + 4 := by
      rw [List.flatMap_append, List.length_append, List.flatMap_singleton,
        Wire.Extension.length_encode]
      omega
    rw [length, UInt16.ofNat_add, UInt16.ofNat_add, ← counted, ← isWire.length]
    rfl
  · simp [allGroups, groups, BuilderCall.groups]

theorem BuiltBy.call {calls : List BuilderCall} {before after : ClientHelloBuilder}
    (built : BuiltBy calls before) {call : BuilderCall} (called : before.call call = some after)
    (plain : call ≠ .addExtension (.emptyExtension 51)) : BuiltBy (calls ++ [call]) after := by
  cases call with
  | addCipherSuite cipherSuite =>
    cases called
    refine ⟨?_, ?_⟩
    · simp [ClientHelloBuilder.addCipherSuite, built.cipherSuites, BuilderCall.cipherSuites]
    · rw [List.flatMap_append, List.flatMap_singleton, BuilderCall.groups, List.append_nil]
      exact built.extensions
  | addCompressionMethod method =>
    cases called
    refine ⟨?_, ?_⟩
    · rw [List.flatMap_append, List.flatMap_singleton, BuilderCall.cipherSuites, List.append_nil]
      exact built.cipherSuites
    · rw [List.flatMap_append, List.flatMap_singleton, BuilderCall.groups, List.append_nil]
      exact built.extensions
  | addExtension call =>
    simp only [ClientHelloBuilder.call] at called
    split at called
    · next extension made =>
      cases called
      exact built.addExtension made fun same => plain (congrArg _ same)
    · cases called

theorem builtBy_of_buildHello {random sessionId : List.Vector UInt8 32}
    {calls : List BuilderCall} {builder : ClientHelloBuilder}
    (plain : WithoutEmptyKeyShare calls)
    (built : buildHello random sessionId calls = some builder) :
    BuiltBy calls builder := by
  refine Runs.history_of_run (fun past state => WithoutEmptyKeyShare past → BuiltBy past state)
    ?_ [] ?_ built plain
  · intro past before call after earlier called plain
    simp only [WithoutEmptyKeyShare, List.mem_append, List.mem_singleton, not_or] at plain
    exact (earlier plain.1).call called fun same => plain.2 same.symm
  · exact fun _ => ⟨rfl, [], rfl, rfl, rfl⟩

/-- What `into_buf` returns is the record of a client hello with the suites and extensions that
were added. -/
theorem exists_hello_of_intoBuf {calls : List BuilderCall} {builder : ClientHelloBuilder}
    (built : BuiltBy calls builder) {buf : Bytes} (encoded : builder.intoBuf = .ok buf) :
    ∃ hello : Wire.ClientHello, buf = hello.record 1 ∧
      hello.cipherSuites = calls.flatMap BuilderCall.cipherSuites ∧
      hello.groups = calls.flatMap BuilderCall.groups := by
  obtain ⟨wires, bytes, counted, groups⟩ := built.extensions
  simp only [ClientHelloBuilder.intoBuf, Outcome.bind_eq_ok_iff, tryIntoU8_eq_ok_iff,
    tryIntoU16_eq_ok_iff, Outcome.pure_eq_ok, Outcome.ok.injEq] at encoded
  obtain ⟨_, ⟨fitsSessionId, rfl⟩, _, ⟨fitsCiphers, rfl⟩, _, ⟨fitsCompression, rfl⟩, _,
    ⟨fitsMessage, rfl⟩, rfl⟩ := encoded
  have inMessage := fitsMessage
  simp only [List.length_append, List.length_cons, bytes] at inMessage
  let hello : Wire.ClientHello := {
    version := builder.legacyVersion
    random := builder.random.toList
    sessionId := builder.sessionId
    cipherSuites := builder.cipherSuites
    compressionMethods := builder.compressionMethods
    extensions := wires
    length_random := by simp
    fits_sessionId := fitsSessionId
    fits_cipherSuites := by omega
    fits_compressionMethods := fitsCompression
    fits_extensions := by omega }
  refine ⟨hello, ?_, built.cipherSuites, groups⟩
  have body : ofUInt16 builder.legacyVersion ++ builder.random.toList ++
      (UInt8.ofNat builder.sessionId.length :: builder.sessionId) ++
      (ofUInt16 (.ofNat (builder.cipherSuites.length * 2)) ++
        builder.cipherSuites.flatMap ofUInt16) ++
      (UInt8.ofNat builder.compressionMethods.length :: builder.compressionMethods) ++
      (ofUInt16 builder.extensionsLen ++ builder.extensions.flatMap Extension.encode) =
        hello.body := by
    rw [counted, bytes, Nat.mul_comm, ← Wire.length_flatMap_ofUInt16]
    simp [Wire.ClientHello.body, Wire.ClientHello.vectors, Wire.ClientHello.extensionBytes, vector8,
      vector16, hello]
  have version : ofUInt16 0x0301 = [3, 1] := by decide
  rw [body, Wire.ClientHello.record, UInt16.ofNat_add, version]
  simp

end PqcUtils.Scan

import PqcUtils.Library.Checked
import PqcUtils.Scan.Tls.Encoding

/-!
# The lengths of the client hello

Where a length is converted to its field, one that does not fit is an error. The
sums made with the converted lengths are not guarded: they are panics in a build
with overflow checks. Between the last length a guard lets through and the last
one the sum behind it has room for, a call fails in the wrong way.
-/

namespace PqcUtils.Scan

open Bytes Checked Text

/-! ## Calls with overflow checks -/

namespace Extension

def serverNameChecked (hostname : String) : Outcome String Extension := do
  let hb := toUtf8 hostname
  let hblen ← tryIntoU16 hb.length
  let listLen ← add16 hblen 3
  ofBuf 0 (ofUInt16 listLen ++ 0 :: (ofUInt16 hblen ++ hb))

def keyShareChecked (keyshares : List KeyShareEntry) : Outcome String Extension := do
  let keyshareLen ← keyshares.foldlM (fun len keyshare =>
    add16 len keyshare.exchangeLen >>= fun len => add16 len 4) 0
  ofBuf 51 (ofUInt16 keyshareLen ++ keyshares.flatMap fun keyshare =>
    ofUInt16 keyshare.group ++ ofUInt16 keyshare.exchangeLen ++ keyshare.exchange)

end Extension

def ExtensionCall.makeChecked : ExtensionCall → Outcome String Extension
  | serverName hostname => Extension.serverNameChecked hostname
  | keyShare shares =>
    Extension.keyShareChecked (shares.map fun share => .new share.1 share.2)
  | call => call.make

namespace ClientHelloBuilder

def addExtensionChecked (builder : ClientHelloBuilder) (extension : Extension) :
    Outcome String ClientHelloBuilder := do
  let extensionsLen ← add16 builder.extensionsLen extension.extLen
  let extensionsLen ← add16 extensionsLen 4
  pure { builder with extensionsLen, extensions := builder.extensions ++ [extension] }

def intoBufChecked (builder : ClientHelloBuilder) : Outcome String Bytes := do
  let sessionIdLen ← tryIntoU8 builder.sessionId.length
  let cslen ← tryIntoU16 (builder.cipherSuites.length * 2)
  let cmlen ← tryIntoU8 builder.compressionMethods.length
  let buf := ofUInt16 builder.legacyVersion ++ builder.random.toList ++
    (sessionIdLen :: builder.sessionId) ++
    (ofUInt16 cslen ++ builder.cipherSuites.flatMap ofUInt16) ++
    (cmlen :: builder.compressionMethods) ++
    (ofUInt16 builder.extensionsLen ++ builder.extensions.flatMap Extension.encode)
  let buflen ← tryIntoU16 buf.length
  let recordLen ← add16 buflen 4
  pure ([22] ++ ofUInt16 0x0301 ++ ofUInt16 recordLen ++ [1, 0] ++ ofUInt16 buflen ++ buf)

/-- One call. An extension whose constructor returns an error is not added. -/
def callChecked (builder : ClientHelloBuilder) : BuilderCall → Option ClientHelloBuilder
  | .addCipherSuite cipherSuite => some (builder.addCipherSuite cipherSuite)
  | .addCompressionMethod method => some (builder.addCompressionMethod method)
  | .addExtension call =>
    match call.makeChecked with
    | .ok extension =>
      match builder.addExtensionChecked extension with
      | .ok builder => some builder
      | _ => none
    | .err _ => some builder
    | .panic => none

end ClientHelloBuilder

def buildHelloChecked (random sessionId : List.Vector UInt8 32) (calls : List BuilderCall) :
    Option ClientHelloBuilder :=
  Runs.run ClientHelloBuilder.callChecked (.new random sessionId) calls

/-! ## What the lengths should say -/

namespace ExtensionCall

def payloadSize : ExtensionCall → Nat
  | serverName hostname => 5 + (toUtf8 hostname).length
  | supportedVersions => 3
  | recordSizeLimit _ => 2
  | supportedGroups numbers => 2 + 2 * numbers.length
  | signatureAlgorithms numbers => 2 + 2 * numbers.length
  | emptyExtension _ => 0
  | signedCertificateTimestamp => 0
  | extendedMasterSecret => 0
  | compressCertificate => 7
  | renegotiationInfo => 1
  | ecPointFormats => 2
  | statusRequest => 5
  | keyShare shares => 2 + (shares.map fun share => share.2.length + 4).sum

/-- The constructor makes no panic; the length it writes is that of the payload, and there is an
error if the payload is too large for it. -/
structure MadeExactly (call : ExtensionCall) : Prop where
  ne_panic : call.makeChecked ≠ .panic
  exact : ∀ extension, call.makeChecked = .ok extension →
    extension.extLen.toNat = extension.payload.length
  tooLarge : 2 ^ 16 ≤ call.payloadSize → ∃ error, call.makeChecked = .err error

end ExtensionCall

namespace ClientHelloBuilder

def messageSize (builder : ClientHelloBuilder) : Nat :=
  40 + builder.sessionId.length + 2 * builder.cipherSuites.length +
    builder.compressionMethods.length + (builder.extensions.flatMap Extension.encode).length

def TooLarge (builder : ClientHelloBuilder) : Prop :=
  2 ^ 16 ≤ 2 * builder.cipherSuites.length ∨ 2 ^ 8 ≤ builder.compressionMethods.length ∨
    2 ^ 16 ≤ (builder.extensions.flatMap Extension.encode).length ∨
    2 ^ 16 ≤ builder.messageSize + 4

/-- The lengths of the record, of the handshake message, of the extensions and of each of them
are numbers of bytes. -/
structure HasLengths (builder : ClientHelloBuilder) (buf : Bytes)
    (recordLength handshakeLength extensionsLength : UInt16) : Prop where
  layout : ∃ fields, buf = [22, 3, 1] ++ ofUInt16 recordLength ++ ([1, 0] ++
    ofUInt16 handshakeLength) ++ fields ++ ofUInt16 extensionsLength ++
    builder.extensions.flatMap Extension.encode
  record : recordLength.toNat = buf.length - 5
  handshake : handshakeLength.toNat = buf.length - 9
  extensions : extensionsLength.toNat = (builder.extensions.flatMap Extension.encode).length
  extension : ∀ extension ∈ builder.extensions,
    extension.extLen.toNat = extension.payload.length

structure WrittenExactly (builder : ClientHelloBuilder) : Prop where
  ne_panic : builder.intoBufChecked ≠ .panic
  exact : ∀ buf, builder.intoBufChecked = .ok buf →
    ∃ recordLength handshakeLength extensionsLength,
      builder.HasLengths buf recordLength handshakeLength extensionsLength
  tooLarge : builder.TooLarge → ∃ error, builder.intoBufChecked = .err error

end ClientHelloBuilder

/-- No sum of the calls overflows, and what they write is exact. -/
structure EncodesExactly (random sessionId : List.Vector UInt8 32) (calls : List BuilderCall) :
    Prop where
  extensions : ∀ call, .addExtension call ∈ calls → call.MadeExactly
  hello : ∃ builder, buildHelloChecked random sessionId calls = some builder ∧
    builder.WrittenExactly

/-! ## Constructors -/

namespace ExtensionCall

/-- No sum of the constructor overflows: a host name is not one of the three longest that fit
their own length, and the key shares with the lengths that are written for them have room. -/
def SumsFit : ExtensionCall → Prop
  | serverName hostname =>
    (toUtf8 hostname).length + 3 < 2 ^ 16 ∨ 2 ^ 16 ≤ (toUtf8 hostname).length
  | keyShare shares => (shares.map fun share => share.2.length % 2 ^ 16 + 4).sum < 2 ^ 16
  | _ => True

end ExtensionCall

theorem tryIntoU16_of_fits {n : Nat} (fits : n < 2 ^ 16) : tryIntoU16 n = .ok (.ofNat n) :=
  tryIntoU16_eq_ok_iff.mpr ⟨fits, rfl⟩

theorem tryIntoU16_of_tooLarge {n : Nat} (tooLarge : 2 ^ 16 ≤ n) :
    tryIntoU16 n = .err tryFromIntError := if_neg (Nat.not_lt.mpr tooLarge)

theorem Extension.ofBuf_of_tooLarge {extType : UInt16} {buf : Bytes}
    (tooLarge : 2 ^ 16 ≤ buf.length) : ofBuf extType buf = .err tryFromIntError := by
  rw [ofBuf, tryIntoU16_of_tooLarge tooLarge, Outcome.err_bind]

theorem serverNameChecked_of_fits {hostname : String} (fits : (toUtf8 hostname).length < 2 ^ 16) :
    Extension.serverNameChecked hostname =
      ofNat16 ((toUtf8 hostname).length + 3) >>= fun listLen =>
        Extension.ofBuf 0 (ofUInt16 listLen ++
          0 :: (ofUInt16 (.ofNat (toUtf8 hostname).length) ++ toUtf8 hostname)) := by
  rw [Extension.serverNameChecked, tryIntoU16_of_fits fits, Outcome.ok_bind, add16_ofNat fits]
  rfl

theorem keyshareLenChecked_eq (shares : List (UInt16 × Bytes)) :
    (shares.map fun share => KeyShareEntry.new share.1 share.2).foldlM (fun len keyshare =>
        add16 len keyshare.exchangeLen >>= fun len => add16 len 4) 0 =
      (ofNat16 (shares.map fun share => share.2.length % 2 ^ 16 + 4).sum :
        Outcome String UInt16) := by
  have adds (len : UInt16) (keyshare : KeyShareEntry) :
      (add16 len keyshare.exchangeLen >>= fun len => add16 len 4) =
        (ofNat16 (len.toNat + (keyshare.exchangeLen.toNat + 4)) : Outcome String UInt16) := by
    rw [add16_eq_ofNat16, ofNat16_bind_add16, Nat.add_assoc]
    rfl
  rw [foldlM_eq_ofNat16 adds]
  simp [Function.comp_def, KeyShareEntry.new]

namespace ExtensionCall

theorem makeChecked_of_sumsFit {call : ExtensionCall} (fits : call.SumsFit) :
    call.makeChecked = call.make := by
  cases call with
  | serverName hostname =>
    rcases fits with fits | tooLarge
    · have inRange : (toUtf8 hostname).length < 2 ^ 16 := by omega
      rw [makeChecked, make, serverNameChecked_of_fits inRange, ofNat16_of_lt fits, Outcome.ok_bind,
        Extension.serverName, tryIntoU16_of_fits inRange, Outcome.ok_bind, UInt16.ofNat_add]
      rfl
    · rw [makeChecked, make, Extension.serverNameChecked, Extension.serverName,
        tryIntoU16_of_tooLarge tooLarge, Outcome.err_bind, Outcome.err_bind]
  | keyShare shares =>
    have checked := keyshareLenChecked_eq shares
    rw [ofNat16_of_lt fits] at checked
    have unchecked := foldl_eq_of_foldlM
      (fun len (keyshare : KeyShareEntry) => len + keyshare.exchangeLen + 4)
      (fun len keyshare sum added => by
        obtain ⟨len', first, second⟩ := Outcome.bind_eq_ok_iff.mp added
        rw [eq_add_of_add16 second, eq_add_of_add16 first]) checked
    rw [makeChecked, make, Extension.keyShareChecked, Extension.keyShare, checked, Outcome.ok_bind,
      unchecked]
  | _ => rfl

theorem makeChecked_of_not_sumsFit {call : ExtensionCall} (overflows : ¬call.SumsFit) :
    call.makeChecked = .panic := by
  cases call with
  | serverName hostname =>
    rw [SumsFit, not_or, Nat.not_lt, Nat.not_le] at overflows
    rw [makeChecked, serverNameChecked_of_fits overflows.2, ofNat16_eq_panic_iff.mpr overflows.1,
      Outcome.panic_bind]
  | keyShare shares =>
    have tooLarge := Nat.le_of_not_lt overflows
    rw [makeChecked, Extension.keyShareChecked, keyshareLenChecked_eq,
      ofNat16_eq_panic_iff.mpr tooLarge, Outcome.panic_bind]
  | _ => exact absurd trivial overflows

theorem length_keySharePayload (shares : List (UInt16 × Bytes)) :
    ((shares.map fun share => KeyShareEntry.new share.1 share.2).flatMap fun keyshare =>
        ofUInt16 keyshare.group ++ ofUInt16 keyshare.exchangeLen ++ keyshare.exchange).length =
      (shares.map fun share => share.2.length + 4).sum := by
  induction shares with
  | nil => rfl
  | cons share shares ih =>
    rw [List.map_cons, List.flatMap_cons, List.length_append, ih, List.map_cons, List.sum_cons]
    simp [KeyShareEntry.new]
    omega

theorem make_of_fits (call : ExtensionCall) (fits : call.payloadSize < 2 ^ 16) :
    ∃ extension, call.make = .ok extension ∧ extension.payload.length = call.payloadSize := by
  cases call with
  | serverName hostname =>
    rw [payloadSize] at fits
    rw [make, Extension.serverName, tryIntoU16_of_fits (by omega), Outcome.ok_bind]
    refine ⟨_, Extension.ofBuf_eq_ok_iff.mpr ⟨?_, rfl⟩, ?_⟩ <;>
      simp [payloadSize] <;> omega
  | supportedGroups numbers | signatureAlgorithms numbers =>
    rw [payloadSize] at fits
    simp only [make, Extension.supportedGroups, Extension.signatureAlgorithms, Extension.ofNumbers]
    rw [tryIntoU16_of_fits (by omega), Outcome.ok_bind]
    refine ⟨_, Extension.ofBuf_eq_ok_iff.mpr ⟨?_, rfl⟩, ?_⟩ <;>
      rw [List.length_append, length_ofUInt16, Wire.length_flatMap_ofUInt16]
    · exact fits
    · rfl
  | keyShare shares =>
    rw [payloadSize] at fits
    refine ⟨_, Extension.ofBuf_eq_ok_iff.mpr ⟨?_, rfl⟩, ?_⟩ <;>
      rw [List.length_append, length_keySharePayload, length_ofUInt16]
    · exact fits
    · rfl
  | supportedVersions | recordSizeLimit limit | emptyExtension extType
  | signedCertificateTimestamp | extendedMasterSecret | statusRequest
  | compressCertificate | renegotiationInfo | ecPointFormats =>
    exact ⟨_, rfl, rfl⟩

theorem make_of_tooLarge (call : ExtensionCall) (tooLarge : 2 ^ 16 ≤ call.payloadSize) :
    call.make = .err tryFromIntError := by
  cases call with
  | serverName hostname =>
    rw [payloadSize] at tooLarge
    rw [make, Extension.serverName]
    by_cases fits : (toUtf8 hostname).length < 2 ^ 16
    · rw [tryIntoU16_of_fits fits, Outcome.ok_bind]
      apply Extension.ofBuf_of_tooLarge
      simp
      omega
    · rw [tryIntoU16_of_tooLarge (Nat.le_of_not_lt fits), Outcome.err_bind]
  | supportedGroups numbers | signatureAlgorithms numbers =>
    rw [payloadSize] at tooLarge
    simp only [make, Extension.supportedGroups, Extension.signatureAlgorithms, Extension.ofNumbers]
    by_cases fits : numbers.length * 2 < 2 ^ 16
    · rw [tryIntoU16_of_fits fits, Outcome.ok_bind]
      apply Extension.ofBuf_of_tooLarge
      rwa [List.length_append, length_ofUInt16, Wire.length_flatMap_ofUInt16]
    · rw [tryIntoU16_of_tooLarge (Nat.le_of_not_lt fits), Outcome.err_bind]
  | keyShare shares =>
    apply Extension.ofBuf_of_tooLarge
    rw [List.length_append, length_keySharePayload]
    exact tooLarge
  | supportedVersions | recordSizeLimit limit | emptyExtension extType
  | signedCertificateTimestamp | extendedMasterSecret | statusRequest
  | compressCertificate | renegotiationInfo | ecPointFormats =>
    simp [payloadSize] at tooLarge

theorem exists_made (call : ExtensionCall) (small : call.payloadSize < 2 ^ 16) :
    ∃ extension, call.make = .ok extension ∧ extension.payload.length = call.payloadSize ∧
      extension.extLen.toNat = call.payloadSize := by
  obtain ⟨extension, made, length⟩ := call.make_of_fits small
  refine ⟨extension, made, length, ?_⟩
  rw [(make_eq_ok made).2, length, UInt16.toNat_ofNat_of_lt' small]

/-- A constructor fails in no other way than by a sum that overflows. -/
theorem madeExactly_iff (call : ExtensionCall) : call.MadeExactly ↔ call.SumsFit := by
  constructor
  · intro exact
    by_contra overflows
    exact exact.ne_panic (makeChecked_of_not_sumsFit overflows)
  · intro fits
    have unchecked := makeChecked_of_sumsFit fits
    by_cases small : call.payloadSize < 2 ^ 16
    · obtain ⟨extension, made, length, extLen⟩ := call.exists_made small
      rw [made] at unchecked
      refine ⟨by simp [unchecked], fun extension' made' => ?_, fun tooLarge => by omega⟩
      cases unchecked.symm.trans made'
      rw [extLen, length]
    · have tooLarge := call.make_of_tooLarge (Nat.le_of_not_lt small)
      rw [tooLarge] at unchecked
      exact ⟨by simp [unchecked], fun extension made => by simp [unchecked] at made,
        fun _ => ⟨_, unchecked⟩⟩

end ExtensionCall

/-! ## The builder -/

namespace BuilderCall

def compressionMethods : BuilderCall → Bytes
  | addCompressionMethod method => [method]
  | _ => []

/-- The bytes the call adds to the extensions; one that is too large is not added. -/
def extensionBytes : BuilderCall → Nat
  | addExtension call => if call.payloadSize < 2 ^ 16 then call.payloadSize + 4 else 0
  | _ => 0

def SumsFit : BuilderCall → Prop
  | addExtension call => call.SumsFit
  | _ => True

end BuilderCall

def extensionBytesOf (calls : List BuilderCall) : Nat :=
  (calls.map BuilderCall.extensionBytes).sum

theorem extensionBytesOf_append (calls more : List BuilderCall) :
    extensionBytesOf (calls ++ more) = extensionBytesOf calls + extensionBytesOf more := by
  rw [extensionBytesOf, List.map_append, List.sum_append, extensionBytesOf, extensionBytesOf]

theorem extensionBytesOf_singleton (call : BuilderCall) :
    extensionBytesOf [call] = call.extensionBytes := by
  simp [extensionBytesOf]

def messageSizeOf (calls : List BuilderCall) : Nat :=
  72 + 2 * (calls.flatMap BuilderCall.cipherSuites).length +
    (calls.flatMap BuilderCall.compressionMethods).length + extensionBytesOf calls

/-- The sizes of a builder after the calls. Nothing has wrapped on the way. -/
structure Measures (calls : List BuilderCall) (builder : ClientHelloBuilder) : Prop where
  sessionId : builder.sessionId.length = 32
  cipherSuites : builder.cipherSuites = calls.flatMap BuilderCall.cipherSuites
  compressionMethods : builder.compressionMethods = calls.flatMap BuilderCall.compressionMethods
  extensionBytes : (builder.extensions.flatMap Extension.encode).length = extensionBytesOf calls
  extensionsLen : builder.extensionsLen.toNat =
    (builder.extensions.flatMap Extension.encode).length
  extLen : ∀ extension ∈ builder.extensions, extension.extLen.toNat = extension.payload.length

namespace Measures

variable {calls : List BuilderCall} {builder : ClientHelloBuilder}

theorem new (random sessionId : List.Vector UInt8 32) : Measures [] (.new random sessionId) where
  sessionId := sessionId.toList_length
  cipherSuites := rfl
  compressionMethods := rfl
  extensionBytes := rfl
  extensionsLen := rfl
  extLen := by simp [ClientHelloBuilder.new]

theorem fits_sessionId (measures : Measures calls builder) :
    builder.sessionId.length < 2 ^ 8 := by
  rw [measures.sessionId]
  decide

theorem messageSize_eq (measures : Measures calls builder) :
    builder.messageSize = messageSizeOf calls := by
  rw [ClientHelloBuilder.messageSize, messageSizeOf, measures.sessionId, measures.cipherSuites,
    measures.compressionMethods, measures.extensionBytes]

theorem append (measures : Measures calls builder) {after : ClientHelloBuilder}
    {call : BuilderCall} (sessionId : after.sessionId = builder.sessionId)
    (cipherSuites : after.cipherSuites = builder.cipherSuites ++ call.cipherSuites)
    (compressionMethods :
      after.compressionMethods = builder.compressionMethods ++ call.compressionMethods)
    (extensionsLen : after.extensionsLen = builder.extensionsLen)
    (extensions : after.extensions = builder.extensions)
    (nothing : call.extensionBytes = 0) : Measures (calls ++ [call]) after where
  sessionId := sessionId ▸ measures.sessionId
  cipherSuites := by simp [cipherSuites, measures.cipherSuites]
  compressionMethods := by simp [compressionMethods, measures.compressionMethods]
  extensionBytes := by
    rw [extensions, measures.extensionBytes, extensionBytesOf_append, extensionBytesOf_singleton,
      nothing, Nat.add_zero]
  extensionsLen := by rw [extensionsLen, extensions, measures.extensionsLen]
  extLen := extensions ▸ measures.extLen

theorem addExtension (measures : Measures calls builder) {call : ExtensionCall}
    {extension : Extension} (length : extension.payload.length = call.payloadSize)
    (extLen : extension.extLen.toNat = call.payloadSize) (small : call.payloadSize < 2 ^ 16)
    (fits : extensionBytesOf (calls ++ [.addExtension call]) < 2 ^ 16) :
    Measures (calls ++ [.addExtension call]) (builder.addExtension extension) := by
  have bytes : ((builder.addExtension extension).extensions.flatMap Extension.encode).length =
      extensionBytesOf (calls ++ [.addExtension call]) := by
    rw [extensionBytesOf_append, extensionBytesOf_singleton, ← measures.extensionBytes,
      BuilderCall.extensionBytes, if_pos small, ← length]
    simp [ClientHelloBuilder.addExtension, Extension.encode]
    omega
  refine ⟨measures.sessionId, ?_, ?_, bytes, ?_, ?_⟩
  · simp [ClientHelloBuilder.addExtension, measures.cipherSuites, BuilderCall.cipherSuites]
  · simp [ClientHelloBuilder.addExtension, measures.compressionMethods,
      BuilderCall.compressionMethods]
  · rw [bytes]
    rw [extensionBytesOf_append, extensionBytesOf_singleton, ← measures.extensionBytes,
      BuilderCall.extensionBytes, if_pos small, ← measures.extensionsLen] at fits ⊢
    rw [ClientHelloBuilder.addExtension, UInt16.toNat_add, UInt16.toNat_add, extLen]
    have four : (4 : UInt16).toNat = 4 := rfl
    omega
  · intro other membership
    rcases List.mem_append.mp membership with before | new
    · exact measures.extLen other before
    · rw [List.mem_singleton.mp new, extLen, length]

end Measures

namespace ClientHelloBuilder

theorem addExtensionChecked_of_fits {builder : ClientHelloBuilder} {extension : Extension}
    (fits : builder.extensionsLen.toNat + (extension.extLen.toNat + 4) < 2 ^ 16) :
    builder.addExtensionChecked extension = .ok (builder.addExtension extension) := by
  have first : add16 builder.extensionsLen extension.extLen =
      (.ok (builder.extensionsLen + extension.extLen) : Outcome String UInt16) :=
    if_pos (by omega)
  have second : add16 (builder.extensionsLen + extension.extLen) 4 =
      (.ok (builder.extensionsLen + extension.extLen + 4) : Outcome String UInt16) := by
    apply if_pos
    rw [UInt16.toNat_add, Nat.mod_eq_of_lt (by omega)]
    exact Nat.add_assoc .. ▸ fits
  rw [addExtensionChecked, first, Outcome.ok_bind, second, Outcome.ok_bind]
  rfl

theorem addExtensionChecked_of_overflow {builder : ClientHelloBuilder} {extension : Extension}
    (overflows : 2 ^ 16 ≤ builder.extensionsLen.toNat + (extension.extLen.toNat + 4)) :
    builder.addExtensionChecked extension = .panic := by
  have panics : (add16 builder.extensionsLen extension.extLen >>= fun len => add16 len 4) =
      (.panic : Outcome String UInt16) := by
    rw [add16_eq_ofNat16, ofNat16_bind_add16, Nat.add_assoc]
    exact ofNat16_eq_panic_iff.mpr overflows
  rcases Outcome.bind_eq_panic_iff.mp panics with first | ⟨len, first, second⟩
  · rw [addExtensionChecked, first, Outcome.panic_bind]
  · rw [addExtensionChecked, first, Outcome.ok_bind, second, Outcome.panic_bind]

end ClientHelloBuilder

theorem Measures.call {calls : List BuilderCall} {builder : ClientHelloBuilder}
    (measures : Measures calls builder) {call : BuilderCall} (sumsFit : call.SumsFit)
    (fits : extensionBytesOf (calls ++ [call]) < 2 ^ 16) :
    ∃ after, builder.callChecked call = some after ∧ Measures (calls ++ [call]) after := by
  cases call with
  | addCipherSuite cipherSuite =>
    exact ⟨_, rfl, measures.append rfl rfl (List.append_nil _).symm rfl rfl rfl⟩
  | addCompressionMethod method =>
    exact ⟨_, rfl, measures.append rfl (List.append_nil _).symm rfl rfl rfl rfl⟩
  | addExtension call =>
    have unchecked := call.makeChecked_of_sumsFit sumsFit
    by_cases small : call.payloadSize < 2 ^ 16
    · obtain ⟨extension, made, length, extLen⟩ := call.exists_made small
      have room : builder.extensionsLen.toNat + (extension.extLen.toNat + 4) < 2 ^ 16 := by
        rw [extensionBytesOf_append, extensionBytesOf_singleton, BuilderCall.extensionBytes,
          if_pos small, ← measures.extensionBytes, ← measures.extensionsLen] at fits
        rwa [extLen]
      refine ⟨builder.addExtension extension, ?_, measures.addExtension length extLen small fits⟩
      simp only [ClientHelloBuilder.callChecked, unchecked, made,
        ClientHelloBuilder.addExtensionChecked_of_fits room]
    · have tooLarge := call.make_of_tooLarge (Nat.le_of_not_lt small)
      have nothing : BuilderCall.extensionBytes (.addExtension call) = 0 := if_neg small
      refine ⟨builder, ?_, measures.append rfl (List.append_nil _).symm (List.append_nil _).symm
        rfl rfl nothing⟩
      simp only [ClientHelloBuilder.callChecked, unchecked, tooLarge]

theorem Measures.sumsFit_of_call {calls : List BuilderCall} {builder after : ClientHelloBuilder}
    (measures : Measures calls builder) {call : BuilderCall}
    (called : builder.callChecked call = some after) :
    call.SumsFit ∧ extensionBytesOf (calls ++ [call]) < 2 ^ 16 := by
  have room : extensionBytesOf calls < 2 ^ 16 := by
    rw [← measures.extensionBytes, ← measures.extensionsLen]
    exact builder.extensionsLen.toNat_lt
  rw [extensionBytesOf_append, extensionBytesOf_singleton]
  cases call with
  | addCipherSuite cipherSuite => exact ⟨trivial, room⟩
  | addCompressionMethod method => exact ⟨trivial, room⟩
  | addExtension call =>
    have sumsFit : call.SumsFit := by
      by_contra overflows
      simp [ClientHelloBuilder.callChecked, call.makeChecked_of_not_sumsFit overflows] at called
    refine ⟨sumsFit, ?_⟩
    by_cases small : call.payloadSize < 2 ^ 16
    · obtain ⟨extension, made, length, extLen⟩ := call.exists_made small
      rw [BuilderCall.extensionBytes, if_pos small, ← measures.extensionBytes,
        ← measures.extensionsLen, ← extLen]
      by_contra overflows
      have panics : builder.addExtensionChecked extension = .panic :=
        ClientHelloBuilder.addExtensionChecked_of_overflow (Nat.le_of_not_lt overflows)
      simp [ClientHelloBuilder.callChecked, call.makeChecked_of_sumsFit sumsFit, made,
        panics] at called
    · rw [BuilderCall.extensionBytes, if_neg small, Nat.add_zero]
      exact room

theorem measures_of_buildHelloChecked {random sessionId : List.Vector UInt8 32}
    {calls : List BuilderCall} {builder : ClientHelloBuilder}
    (built : buildHelloChecked random sessionId calls = some builder) :
    Measures calls builder := by
  refine Runs.history_of_run Measures ?_ [] (Measures.new random sessionId) built
  intro past before call after measures called
  obtain ⟨sumsFit, fits⟩ := measures.sumsFit_of_call called
  obtain ⟨after', called', measured⟩ := measures.call sumsFit fits
  cases called.symm.trans called'
  exact measured

/-- The calls complete exactly if all their sums fit, the one of the builder included. -/
theorem exists_buildHelloChecked_iff (random sessionId : List.Vector UInt8 32)
    (calls : List BuilderCall) :
    (∃ builder, buildHelloChecked random sessionId calls = some builder) ↔
      (∀ call ∈ calls, call.SumsFit) ∧ extensionBytesOf calls < 2 ^ 16 := by
  induction calls using List.reverseRecOn with
  | nil => simp [buildHelloChecked, extensionBytesOf]
  | append_singleton calls call ih =>
    have step (after : ClientHelloBuilder) :
        buildHelloChecked random sessionId (calls ++ [call]) = some after ↔
          ∃ before, buildHelloChecked random sessionId calls = some before ∧
            before.callChecked call = some after := by
      rw [buildHelloChecked, Runs.run_append, Option.bind_eq_some_iff]
      simp [buildHelloChecked]
    simp only [step, List.forall_mem_append, List.forall_mem_singleton]
    constructor
    · rintro ⟨after, before, built, called⟩
      obtain ⟨sumsFit, fits⟩ := (measures_of_buildHelloChecked built).sumsFit_of_call called
      exact ⟨⟨(ih.mp ⟨before, built⟩).1, sumsFit⟩, fits⟩
    · rintro ⟨⟨earlier, sumsFit⟩, fits⟩
      have room : extensionBytesOf calls < 2 ^ 16 := by
        rw [extensionBytesOf_append] at fits
        omega
      obtain ⟨before, built⟩ := ih.mpr ⟨earlier, room⟩
      obtain ⟨after, called, -⟩ := (measures_of_buildHelloChecked built).call sumsFit fits
      exact ⟨after, before, built, called⟩

/-! ## The message -/

namespace ClientHelloBuilder

def fields (builder : ClientHelloBuilder) : Bytes :=
  ofUInt16 builder.legacyVersion ++ builder.random.toList ++
    (.ofNat builder.sessionId.length :: builder.sessionId) ++
    (ofUInt16 (.ofNat (builder.cipherSuites.length * 2)) ++
      builder.cipherSuites.flatMap ofUInt16) ++
    (.ofNat builder.compressionMethods.length :: builder.compressionMethods)

def message (builder : ClientHelloBuilder) : Bytes :=
  builder.fields ++
    (ofUInt16 builder.extensionsLen ++ builder.extensions.flatMap Extension.encode)

theorem length_message (builder : ClientHelloBuilder) :
    builder.message.length = builder.messageSize := by
  simp only [message, fields, messageSize, List.length_append, List.length_cons, length_ofUInt16,
    Wire.length_flatMap_ofUInt16, List.Vector.toList_length]
  omega

theorem ciphers_fit {builder : ClientHelloBuilder} (inRange : builder.messageSize < 2 ^ 16) :
    2 * builder.cipherSuites.length < 2 ^ 16 := by
  rw [messageSize] at inRange
  omega

theorem intoBufChecked_eq {builder : ClientHelloBuilder}
    (fitsSessionId : builder.sessionId.length < 2 ^ 8)
    (fitsCiphers : 2 * builder.cipherSuites.length < 2 ^ 16)
    (fitsCompression : builder.compressionMethods.length < 2 ^ 8) :
    builder.intoBufChecked =
      tryIntoU16 builder.messageSize >>= fun buflen =>
      add16 buflen 4 >>= fun recordLen =>
      pure ([22] ++ ofUInt16 0x0301 ++ ofUInt16 recordLen ++ [1, 0] ++ ofUInt16 buflen ++
        builder.message) := by
  rw [intoBufChecked, tryIntoU8_eq_ok_iff.mpr ⟨fitsSessionId, rfl⟩, Outcome.ok_bind,
    tryIntoU16_of_fits (by omega), Outcome.ok_bind,
    tryIntoU8_eq_ok_iff.mpr ⟨fitsCompression, rfl⟩, Outcome.ok_bind, ← length_message]
  rfl

theorem intoBufChecked_of_fits {builder : ClientHelloBuilder}
    (fitsSessionId : builder.sessionId.length < 2 ^ 8)
    (fitsCompression : builder.compressionMethods.length < 2 ^ 8)
    (fits : builder.messageSize + 4 < 2 ^ 16) :
    builder.intoBufChecked = .ok ([22, 3, 1] ++ ofUInt16 (.ofNat (builder.messageSize + 4)) ++
      ([1, 0] ++ ofUInt16 (.ofNat builder.messageSize)) ++ builder.message) := by
  have inRange : builder.messageSize < 2 ^ 16 := by omega
  have version : ofUInt16 0x0301 = [3, 1] := by decide
  rw [intoBufChecked_eq fitsSessionId (ciphers_fit inRange) fitsCompression,
    tryIntoU16_of_fits inRange,
    Outcome.ok_bind, add16_ofNat inRange]
  have added : ofNat16 (builder.messageSize + (4 : UInt16).toNat) =
      (.ok (.ofNat (builder.messageSize + 4)) : Outcome String UInt16) := ofNat16_of_lt fits
  rw [added, Outcome.ok_bind, version]
  simp

/-- The length of the message is one of the four that fit their number and make the sum behind it
overflow. -/
def NearLimit (builder : ClientHelloBuilder) : Prop :=
  builder.compressionMethods.length < 2 ^ 8 ∧ builder.messageSize < 2 ^ 16 ∧
    2 ^ 16 ≤ builder.messageSize + 4

theorem intoBufChecked_of_nearLimit {builder : ClientHelloBuilder}
    (fitsSessionId : builder.sessionId.length < 2 ^ 8) (near : builder.NearLimit) :
    builder.intoBufChecked = .panic := by
  obtain ⟨fitsCompression, inRange, overflows⟩ := near
  have panics : ofNat16 (builder.messageSize + (4 : UInt16).toNat) =
      (.panic : Outcome String UInt16) := ofNat16_eq_panic_iff.mpr overflows
  rw [intoBufChecked_eq fitsSessionId (ciphers_fit inRange) fitsCompression,
    tryIntoU16_of_fits inRange,
    Outcome.ok_bind, add16_ofNat inRange, panics, Outcome.panic_bind]

theorem intoBufChecked_of_tooLarge {builder : ClientHelloBuilder}
    (fitsSessionId : builder.sessionId.length < 2 ^ 8)
    (tooLarge : 2 ^ 8 ≤ builder.compressionMethods.length ∨ 2 ^ 16 ≤ builder.messageSize) :
    builder.intoBufChecked = .err tryFromIntError := by
  by_cases fitsCiphers : 2 * builder.cipherSuites.length < 2 ^ 16
  · by_cases fitsCompression : builder.compressionMethods.length < 2 ^ 8
    · have outOfRange : 2 ^ 16 ≤ builder.messageSize := by omega
      rw [intoBufChecked_eq fitsSessionId fitsCiphers fitsCompression,
        tryIntoU16_of_tooLarge outOfRange, Outcome.err_bind]
    · have failed : tryIntoU8 builder.compressionMethods.length = .err tryFromIntError :=
        if_neg fitsCompression
      rw [intoBufChecked, tryIntoU8_eq_ok_iff.mpr ⟨fitsSessionId, rfl⟩, Outcome.ok_bind,
        tryIntoU16_of_fits (by omega), Outcome.ok_bind, failed, Outcome.err_bind]
  · rw [intoBufChecked, tryIntoU8_eq_ok_iff.mpr ⟨fitsSessionId, rfl⟩, Outcome.ok_bind,
      tryIntoU16_of_tooLarge (by omega), Outcome.err_bind]

theorem hasLengths {calls : List BuilderCall} {builder : ClientHelloBuilder}
    (measures : Measures calls builder) (fits : builder.messageSize + 4 < 2 ^ 16) :
    builder.HasLengths ([22, 3, 1] ++ ofUInt16 (.ofNat (builder.messageSize + 4)) ++
        ([1, 0] ++ ofUInt16 (.ofNat builder.messageSize)) ++ builder.message)
      (.ofNat (builder.messageSize + 4)) (.ofNat builder.messageSize) builder.extensionsLen := by
  refine ⟨⟨builder.fields, ?_⟩, ?_, ?_, measures.extensionsLen, measures.extLen⟩
  · simp only [message, List.append_assoc]
  · rw [UInt16.toNat_ofNat_of_lt' fits]
    simp only [List.length_append, length_ofUInt16, length_message, List.length_cons,
      List.length_nil]
    omega
  · rw [UInt16.toNat_ofNat_of_lt' (Nat.lt_of_le_of_lt (Nat.le_add_right _ 4) fits)]
    simp only [List.length_append, length_ofUInt16, length_message, List.length_cons,
      List.length_nil]
    omega

theorem writtenExactly_iff {calls : List BuilderCall} {builder : ClientHelloBuilder}
    (measures : Measures calls builder) : builder.WrittenExactly ↔ ¬builder.NearLimit := by
  constructor
  · intro exact near
    exact exact.ne_panic (intoBufChecked_of_nearLimit measures.fits_sessionId near)
  · intro away
    by_cases tooLarge :
        2 ^ 8 ≤ builder.compressionMethods.length ∨ 2 ^ 16 ≤ builder.messageSize
    · have failed := intoBufChecked_of_tooLarge measures.fits_sessionId tooLarge
      exact ⟨by simp [failed], fun buf written => by simp [failed] at written,
        fun _ => ⟨_, failed⟩⟩
    · rw [not_or, Nat.not_le, Nat.not_le] at tooLarge
      obtain ⟨fitsCompression, inRange⟩ := tooLarge
      have fits : builder.messageSize + 4 < 2 ^ 16 := by
        by_contra overflows
        exact away ⟨fitsCompression, inRange, Nat.le_of_not_lt overflows⟩
      have written := intoBufChecked_of_fits measures.fits_sessionId fitsCompression fits
      refine ⟨by simp [written], fun buf written' => ?_, fun tooLarge => ?_⟩
      · cases written.symm.trans written'
        exact ⟨_, _, _, hasLengths measures fits⟩
      · rw [messageSize] at inRange
        rw [TooLarge] at tooLarge
        omega

/-- Without overflow checks the length of the record has wrapped. -/
theorem intoBuf_of_nearLimit {builder : ClientHelloBuilder}
    (fitsSessionId : builder.sessionId.length < 2 ^ 8) (near : builder.NearLimit) :
    ∃ content, content.length = builder.messageSize + 4 ∧
      builder.intoBuf = .ok ([22, 3, 1] ++
        ofUInt16 (.ofNat (builder.messageSize + 4 - 2 ^ 16)) ++ content) := by
  obtain ⟨fitsCompression, inRange, overflows⟩ := near
  have fitsCiphers : builder.cipherSuites.length * 2 < 2 ^ 16 :=
    Nat.mul_comm .. ▸ ciphers_fit inRange
  have small : builder.messageSize + 4 - 2 ^ 16 < 2 ^ 16 := by omega
  have wrapped : UInt16.ofNat builder.messageSize + 4 =
      UInt16.ofNat (builder.messageSize + 4 - 2 ^ 16) := by
    rw [← UInt16.toNat_inj, UInt16.toNat_add, UInt16.toNat_ofNat_of_lt' inRange,
      UInt16.toNat_ofNat_of_lt' small]
    have four : (4 : UInt16).toNat = 4 := rfl
    omega
  have version : ofUInt16 0x0301 = [3, 1] := by decide
  refine ⟨[1, 0] ++ ofUInt16 (.ofNat builder.messageSize) ++ builder.message, ?_, ?_⟩
  · simp only [List.length_append, length_ofUInt16, length_message, List.length_cons,
      List.length_nil]
    omega
  · rw [intoBuf, tryIntoU8_eq_ok_iff.mpr ⟨fitsSessionId, rfl⟩, Outcome.ok_bind,
      tryIntoU16_of_fits fitsCiphers, Outcome.ok_bind,
      tryIntoU8_eq_ok_iff.mpr ⟨fitsCompression, rfl⟩, Outcome.ok_bind]
    have converted : tryIntoU16 builder.message.length = .ok (.ofNat builder.messageSize) := by
      rw [length_message, tryIntoU16_of_fits inRange]
    simp only [message, fields] at converted ⊢
    rw [converted, Outcome.ok_bind, wrapped, version]
    simp

end ClientHelloBuilder

def EndNearLimit (calls : List BuilderCall) : Prop :=
  (calls.flatMap BuilderCall.compressionMethods).length < 2 ^ 8 ∧ messageSizeOf calls < 2 ^ 16 ∧
    2 ^ 16 ≤ messageSizeOf calls + 4

theorem Measures.nearLimit_iff {calls : List BuilderCall} {builder : ClientHelloBuilder}
    (measures : Measures calls builder) : builder.NearLimit ↔ EndNearLimit calls := by
  rw [ClientHelloBuilder.NearLimit, EndNearLimit, measures.messageSize_eq,
    measures.compressionMethods]

theorem forall_madeExactly_iff (calls : List BuilderCall) :
    (∀ call, .addExtension call ∈ calls → call.MadeExactly) ↔ ∀ call ∈ calls, call.SumsFit := by
  simp only [ExtensionCall.madeExactly_iff]
  constructor
  · intro fits call membership
    cases call with
    | addCipherSuite cipherSuite => trivial
    | addCompressionMethod method => trivial
    | addExtension call => exact fits call membership
  · exact fun fits call membership => fits _ membership

theorem EncodesExactly.conditions {random sessionId : List.Vector UInt8 32}
    {calls : List BuilderCall} (exact : EncodesExactly random sessionId calls) :
    (∀ call ∈ calls, call.SumsFit) ∧ extensionBytesOf calls < 2 ^ 16 ∧ ¬EndNearLimit calls := by
  obtain ⟨builder, built, written⟩ := exact.hello
  obtain ⟨sumsFit, fits⟩ :=
    (exists_buildHelloChecked_iff random sessionId calls).mp ⟨builder, built⟩
  have measures := measures_of_buildHelloChecked built
  refine ⟨sumsFit, fits, ?_⟩
  rw [← measures.nearLimit_iff]
  exact (ClientHelloBuilder.writtenExactly_iff measures).mp written

/-- Three sums of lengths can overflow: that of a constructor, that of the extensions that are
added, and that of the record. Where they do not, every length is exact, and what is too large for
a length is an error. -/
theorem encodesExactly_iff (random sessionId : List.Vector UInt8 32) (calls : List BuilderCall) :
    EncodesExactly random sessionId calls ↔
      (∀ call ∈ calls, call.SumsFit) ∧ extensionBytesOf calls < 2 ^ 16 ∧
        ¬EndNearLimit calls := by
  refine ⟨EncodesExactly.conditions, ?_⟩
  rintro ⟨sumsFit, fits, away⟩
  obtain ⟨builder, built⟩ :=
    (exists_buildHelloChecked_iff random sessionId calls).mpr ⟨sumsFit, fits⟩
  have measures := measures_of_buildHelloChecked built
  rw [← measures.nearLimit_iff] at away
  exact ⟨(forall_madeExactly_iff calls).mpr sumsFit, builder, built,
    (ClientHelloBuilder.writtenExactly_iff measures).mpr away⟩

theorem messageSizeOf_suites (count : Nat) (cipherSuite : UInt16) :
    let calls := List.replicate count (.addCipherSuite cipherSuite)
    messageSizeOf calls = 72 + 2 * count ∧ extensionBytesOf calls = 0 ∧
      calls.flatMap BuilderCall.compressionMethods = [] := by
  simp [messageSizeOf, extensionBytesOf, BuilderCall.cipherSuites, BuilderCall.compressionMethods,
    BuilderCall.extensionBytes]

/-- So many cipher suites that the message has room in its own length alone. -/
def manySuites : List BuilderCall := List.replicate 32730 (.addCipherSuite 0x1301)

theorem endNearLimit_manySuites : EndNearLimit manySuites := by
  obtain ⟨size, -, methods⟩ := messageSizeOf_suites 32730 0x1301
  rw [EndNearLimit, manySuites, size, methods]
  decide

/-- The sum panics, or the record says that it is empty. -/
theorem manySuites_wrap :
    ¬EncodesExactly (.replicate 32 0) (.replicate 32 0) manySuites ∧
      ∃ builder, buildHelloChecked (.replicate 32 0) (.replicate 32 0) manySuites = some builder ∧
        builder.intoBufChecked = .panic ∧
        ∃ content, content.length = 65536 ∧
          builder.intoBuf = .ok ([22, 3, 1, 0, 0] ++ content) := by
  obtain ⟨size, nothing, -⟩ := messageSizeOf_suites 32730 0x1301
  have sumsFit : ∀ call ∈ manySuites, call.SumsFit := by
    intro call membership
    rw [List.eq_of_mem_replicate membership]
    trivial
  have fits : extensionBytesOf manySuites < 2 ^ 16 := by
    rw [manySuites, nothing]
    decide
  obtain ⟨builder, built⟩ :=
    (exists_buildHelloChecked_iff (.replicate 32 0) (.replicate 32 0) manySuites).mpr
      ⟨sumsFit, fits⟩
  have measures := measures_of_buildHelloChecked built
  have near := measures.nearLimit_iff.mpr endNearLimit_manySuites
  obtain ⟨content, length, wrapped⟩ :=
    ClientHelloBuilder.intoBuf_of_nearLimit measures.fits_sessionId near
  rw [measures.messageSize_eq, manySuites, size] at length wrapped
  exact ⟨fun exact => exact.conditions.2.2 endNearLimit_manySuites, builder, built,
    ClientHelloBuilder.intoBufChecked_of_nearLimit measures.fits_sessionId near, content, length,
    wrapped⟩

end PqcUtils.Scan

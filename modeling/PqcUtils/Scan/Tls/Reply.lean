import PqcUtils.Scan.Ssh
import PqcUtils.Scan.Tls.Lengths
import PqcUtils.Scan.Tls.Partition

/-!
# The reply to a client hello

The probe reads once, into a buffer of zeros that the reply need not fill, and
looks at the first eleven bytes of the buffer. The last two of them must not be
zero, so a reply that is cut off before them is not taken for a server hello.
-/

namespace PqcUtils.Scan

open Bytes Text

/-! ## The stream -/

def bufferSize : Nat := 5000

structure Reply where
  bytes : Bytes
  fits : bytes.length ≤ bufferSize

def Reply.buffer (reply : Reply) : Bytes :=
  reply.bytes ++ List.replicate (bufferSize - reply.bytes.length) 0

/-- The one write and the one read of a probe, each of which may fail. -/
structure TlsStream where
  write : Bytes → Except String Unit
  read : Except String Reply

/-! ## Sending -/

/-- The hello for one group. The suites and the schemes are the tables' values, in the order in
which they are visited. -/
def tlsHello (host : String) (group : UInt16) (ciphers sigschemes : List UInt16)
    (random sessionId : List.Vector UInt8 32) : Outcome String Bytes := do
  let chb := ciphers.foldl ClientHelloBuilder.addCipherSuite (.new random sessionId)
  let chb := chb.addCompressionMethod 0
  let chb := chb.addExtension (← Extension.serverName host)
  let chb := chb.addExtension (← Extension.supportedVersions)
  let chb := chb.addExtension (← Extension.signatureAlgorithms sigschemes)
  let chb := chb.addExtension (← Extension.statusRequest)
  let chb := chb.addExtension (← Extension.supportedGroups [group])
  let chb := chb.addExtension (← Extension.keyShare [])
  let chb := chb.addExtension (← Extension.recordSizeLimit 16385)
  let chb := chb.addExtension (← Extension.signedCertificateTimestamp)
  let chb := chb.addExtension (← Extension.extendedMasterSecret)
  let chb := chb.addExtension (← Extension.compressCertificate)
  let chb := chb.addExtension (← Extension.renegotiationInfo)
  let chb := chb.addExtension (← Extension.ecPointFormats)
  chb.intoBuf

/-! ## Reading -/

def readU16 (buf : Bytes) (position : Nat) : Option UInt16 :=
  match readExact buf position 2 with
  | some [a, b] => some (be16 a b)
  | _ => none

def readU24 (buf : Bytes) (position : Nat) : Option UInt32 :=
  match readExact buf position 3 with
  | some [a, b, c] => some (be32 0 a b c)
  | _ => none

/-- A read of the cursor with `?`. -/
def cursorRead {Value : Type} (value : Option Value) : Outcome String Value :=
  .ofOption "failed to fill whole buffer" value

def tlsAlerts : List (UInt8 × String) :=
  [(0, "close_notify"), (10, "unexpected_message"), (20, "bad_record_mac"),
    (21, "decryption_failed_RESERVED"), (22, "record_overflow"),
    (30, "decompression_failure_RESERVED"), (40, "handshake_failure"),
    (41, "no_certificate_RESERVED"), (42, "bad_certificate"), (43, "unsupported_certificate"),
    (44, "certificate_revoked"), (45, "certificate_expired"), (46, "certificate_unknown"),
    (47, "illegal_parameter"), (48, "unknown_ca"), (49, "access_denied"), (50, "decode_error"),
    (51, "decrypt_error"), (52, "too_many_cids_requested"), (60, "export_restriction_RESERVED"),
    (70, "protocol_version"), (71, "insufficient_security"), (80, "internal_error"),
    (86, "inappropriate_fallback"), (90, "user_canceled"), (100, "no_renegotiation_RESERVED"),
    (109, "missing_extension"), (110, "unsupported_extension"),
    (111, "certificate_unobtainable_RESERVED"), (112, "unrecognized_name"),
    (113, "bad_certificate_status_response"), (114, "bad_certificate_hash_value_RESERVED"),
    (115, "unknown_psk_identity"), (116, "certificate_required"),
    (120, "no_application_protocol")]

/-- The record is a handshake message; `read` is the number of bytes received. -/
def checkHandshake (buf : Bytes) (read : Nat) : Outcome String Unit := do
  Outcome.rejectIf (read < 5) "Too short TLS Handshake record received"
  let version ← cursorRead (readU16 buf 1)
  Outcome.rejectIf (version ≠ 0x0303) "Expected TLS 1.2 (0x0303) version number"
  let recordLength ← cursorRead (readU16 buf 3)
  let handshakeType ← cursorRead (readU8 buf 5)
  Outcome.rejectIf (handshakeType ≠ 0x2) "Expected Server Hello as first record"
  let handshakeLength ← cursorRead (readU24 buf 6)
  Outcome.rejectIf (handshakeLength + 4 ≠ recordLength.toUInt32)
    "record length != handshake length + 4"
  let version ← cursorRead (readU16 buf 9)
  Outcome.rejectIf (version ≠ 0x0303) "Expected TLS 1.2 (0x0303) version number"
  pure ()

/-- The error of a description. `TlsAlerts[&desc]` panics if there is no entry. -/
def alertError (desc : UInt8) : Outcome String Unit :=
  if desc ∈ tlsAlerts.map Prod.fst then
    match tlsAlerts.lookup desc with
    | some text => .err text
    | none => .panic
  else
    .err ("Unknown TLS Alert code: 0x" ++ String.ofList (Nat.toDigits 16 desc.toNat))

def checkAlert (buf : Bytes) (read : Nat) : Outcome String Unit := do
  Outcome.rejectIf (read < 5) "Too short TLS Alert record received"
  let version ← cursorRead (readU16 buf 1)
  Outcome.rejectIf (version ≠ 0x0303) "Expected TLS 1.2 (0x0303) version number"
  let length ← cursorRead (readU16 buf 3)
  Outcome.rejectIf (length ≠ 0x2) "Expected TLS Alert record length of 2"
  let level ← cursorRead (readU8 buf 5)
  Outcome.rejectIf (level ≠ 0x2) "TLS Alert record received with non-FATAL level"
  let desc ← cursorRead (readU8 buf 6)
  alertError desc

def checkReply (buf : Bytes) (read : Nat) : Outcome String Unit := do
  let contentType ← cursorRead (readU8 buf 0)
  if contentType = 0x16 then checkHandshake buf read
  else if contentType = 0x15 then checkAlert buf read
  else .err "Unexpected TLS content type != [0x15, 0x16]"

/-- `tls_connect_with_group` on a stream. -/
def tlsConnectWithGroup (stream : TlsStream) (host : String) (group : UInt16)
    (ciphers sigschemes : List UInt16) (random sessionId : List.Vector UInt8 32) :
    Outcome String Unit := do
  let hello ← tlsHello host group ciphers sigschemes random sessionId
  match stream.write hello with
  | .error error => .err error
  | .ok () =>
    match stream.read with
    | .error error => .err error
    | .ok reply => checkReply reply.buffer reply.bytes.length

/-! ## Accepted replies -/

/-- The bytes start like a record of version 3.3 with a server hello of the same version in it, and
the two lengths agree. -/
def StartsServerHello (received : Bytes) : Prop :=
  ∃ high low first second third rest,
    received = [0x16, 0x03, 0x03, high, low, 0x02, first, second, third, 0x03, 0x03] ++ rest ∧
      first.toNat * 2 ^ 16 + second.toNat * 2 ^ 8 + third.toNat + 4 =
        high.toNat * 2 ^ 8 + low.toNat

theorem readU8_of_drop (position : Nat) {buf rest : Bytes} {a : UInt8}
    (remaining : buf.drop position = a :: rest) : readU8 buf position = some a := by
  simp [readU8, readExact, remaining]

theorem readU16_of_drop (position : Nat) {buf rest : Bytes} {a b : UInt8}
    (remaining : buf.drop position = a :: b :: rest) : readU16 buf position = some (be16 a b) := by
  simp [readU16, readExact, remaining]

theorem readU24_of_drop (position : Nat) {buf rest : Bytes} {a b c : UInt8}
    (remaining : buf.drop position = a :: b :: c :: rest) :
    readU24 buf position = some (be32 0 a b c) := by
  simp [readU24, readExact, remaining]

theorem be16_eq_iff {a b c d : UInt8} : be16 a b = be16 c d ↔ a = c ∧ b = d := by
  constructor
  · intro same
    have bytes := congrArg ofUInt16 same
    rw [ofUInt16_be16, ofUInt16_be16] at bytes
    simpa using bytes
  · rintro ⟨rfl, rfl⟩
    rfl

theorem handshakeLength_iff {high low first second third : UInt8} :
    be32 0 first second third + 4 = (be16 high low).toUInt32 ↔
      first.toNat * 2 ^ 16 + second.toNat * 2 ^ 8 + third.toNat + 4 =
        high.toNat * 2 ^ 8 + low.toNat := by
  have bounds := And.intro first.toNat_lt (And.intro second.toNat_lt third.toNat_lt)
  rw [← UInt32.toNat_inj, UInt32.toNat_add, toNat_be32, UInt16.toNat_toUInt32, toNat_be16]
  have zero : (0 : UInt8).toNat = 0 := rfl
  have four : (4 : UInt32).toNat = 4 := rfl
  omega

/-- Every description that is looked up is in the table. -/
theorem exists_alertError (desc : UInt8) : ∃ text, alertError desc = .err text := by
  unfold alertError
  split
  · next known =>
    cases found : tlsAlerts.lookup desc with
    | some text => exact ⟨text, rfl⟩
    | none =>
      obtain ⟨entry, membership, same⟩ := List.mem_map.mp known
      have other := List.lookup_eq_none_iff.mp found entry membership
      simp [same] at other
  · exact ⟨_, rfl⟩

theorem checkAlert_ne_ok (buf : Bytes) (read : Nat) : checkAlert buf read ≠ .ok () := by
  intro accepted
  simp only [checkAlert, Outcome.bind_eq_ok_iff] at accepted
  obtain ⟨_, -, _, -, _, -, _, -, _, -, _, -, _, -, desc, -, accepted⟩ := accepted
  obtain ⟨text, rejected⟩ := exists_alertError desc
  rw [rejected] at accepted
  cases accepted

theorem cursorRead_ne_panic {Value : Type} (value : Option Value) : cursorRead value ≠ .panic :=
  Outcome.ofOption_ne_panic _ value

theorem checkAlert_ne_panic (buf : Bytes) (read : Nat) : checkAlert buf read ≠ .panic := by
  have errors (desc : UInt8) : alertError desc ≠ .panic := by
    obtain ⟨text, rejected⟩ := exists_alertError desc
    simp [rejected]
  simp [checkAlert, Outcome.bind_eq_panic_iff, Outcome.rejectIf_ne_panic, cursorRead_ne_panic,
    errors]

theorem checkHandshake_ne_panic (buf : Bytes) (read : Nat) : checkHandshake buf read ≠ .panic := by
  simp [checkHandshake, Outcome.bind_eq_panic_iff, Outcome.rejectIf_ne_panic, cursorRead_ne_panic]

theorem checkReply_ne_panic (buf : Bytes) (read : Nat) : checkReply buf read ≠ .panic := by
  rw [checkReply, ne_eq, Outcome.bind_eq_panic_iff, not_or, not_exists]
  refine ⟨cursorRead_ne_panic _, ?_⟩
  rintro contentType ⟨-, panics⟩
  split at panics
  · exact checkHandshake_ne_panic buf read panics
  · split at panics
    · exact checkAlert_ne_panic buf read panics
    · cases panics

section Checks

variable (contentType version1 version2 high low handshakeType first second third minor1 minor2 :
  UInt8) (rest : Bytes) (read : Nat)

theorem checkHandshake_eq_ok_iff :
    checkHandshake (contentType :: version1 :: version2 :: high :: low :: handshakeType ::
        first :: second :: third :: minor1 :: minor2 :: rest) read = .ok () ↔
      5 ≤ read ∧ (version1 = 3 ∧ version2 = 3) ∧ handshakeType = 2 ∧
        first.toNat * 2 ^ 16 + second.toNat * 2 ^ 8 + third.toNat + 4 =
          high.toNat * 2 ^ 8 + low.toNat ∧ minor1 = 3 ∧ minor2 = 3 := by
  have version : (0x0303 : UInt16) = be16 3 3 := by decide
  rw [checkHandshake, readU16_of_drop 1 rfl, readU16_of_drop 3 rfl,
    readU8_of_drop 5 rfl, readU24_of_drop 6 rfl,
    readU16_of_drop 9 rfl]
  simp only [cursorRead, Outcome.ofOption_some, Outcome.ok_bind, Outcome.rejectIf_bind_eq_ok_iff,
    Nat.not_lt, ne_eq, not_not, version, be16_eq_iff, handshakeLength_iff, Outcome.pure_eq_ok,
    and_true]

theorem checkReply_eq_ok_iff :
    checkReply (contentType :: version1 :: version2 :: high :: low :: handshakeType ::
        first :: second :: third :: minor1 :: minor2 :: rest) read = .ok () ↔
      contentType = 0x16 ∧ 5 ≤ read ∧ (version1 = 3 ∧ version2 = 3) ∧ handshakeType = 2 ∧
        first.toNat * 2 ^ 16 + second.toNat * 2 ^ 8 + third.toNat + 4 =
          high.toNat * 2 ^ 8 + low.toNat ∧ minor1 = 3 ∧ minor2 = 3 := by
  rw [checkReply, readU8_of_drop 0 rfl, cursorRead, Outcome.ofOption_some,
    Outcome.ok_bind]
  by_cases handshake : contentType = 0x16
  · rw [if_pos handshake, checkHandshake_eq_ok_iff, eq_true handshake, true_and]
  · rw [if_neg handshake, eq_false handshake, false_and, iff_false]
    split
    · exact checkAlert_ne_ok _ _
    · simp

end Checks

/-! ## Replies -/

theorem Reply.exists_buffer (reply : Reply) :
    ∃ contentType version1 version2 high low handshakeType first second third minor1 minor2 rest,
      reply.buffer = contentType :: version1 :: version2 :: high :: low :: handshakeType ::
        first :: second :: third :: minor1 :: minor2 :: rest := by
  have length : reply.buffer.length = bufferSize := by
    rw [buffer, List.length_append, List.length_replicate]
    exact Nat.add_sub_cancel' reply.fits
  match reply.buffer, length with
  | _ :: _ :: _ :: _ :: _ :: _ :: _ :: _ :: _ :: _ :: _ :: _, _ =>
    exact ⟨_, _, _, _, _, _, _, _, _, _, _, _, rfl⟩

/-- What stands behind the received bytes is zero. -/
theorem Reply.getElem?_buffer (reply : Reply) (position : Nat)
    (behind : reply.bytes.length ≤ position) :
    reply.buffer[position]? = none ∨ reply.buffer[position]? = some 0 := by
  rw [buffer, List.getElem?_append_right behind]
  cases found : (List.replicate (bufferSize - reply.bytes.length) (0 : UInt8))[
      position - reply.bytes.length]? with
  | none => exact .inl rfl
  | some byte => exact .inr (congrArg some (List.eq_of_mem_replicate (List.mem_of_getElem? found)))

/-- A reply is accepted exactly if the bytes received start like a server hello. -/
theorem checkReply_buffer_eq_ok_iff (reply : Reply) :
    checkReply reply.buffer reply.bytes.length = .ok () ↔ StartsServerHello reply.bytes := by
  constructor
  · intro accepted
    obtain ⟨contentType, version1, version2, high, low, handshakeType, first, second, third,
      minor1, minor2, rest, split⟩ := reply.exists_buffer
    rw [split, checkReply_eq_ok_iff] at accepted
    obtain ⟨rfl, -, ⟨rfl, rfl⟩, rfl, lengths, rfl, rfl⟩ := accepted
    -- The last byte checked is not zero, so all of them were received.
    have long : 11 ≤ reply.bytes.length := by
      by_contra short
      have last : reply.buffer[10]? = some 3 := by rw [split]; rfl
      rcases reply.getElem?_buffer 10 (by omega) with none | zero
      · simp [none] at last
      · simp [zero] at last
    refine ⟨high, low, first, second, third, reply.bytes.drop 11, ?_, lengths⟩
    have received : reply.bytes.take 11 = reply.buffer.take 11 := by
      rw [Reply.buffer, List.take_append_of_le_length long]
    rw [← List.take_append_drop 11 reply.bytes, received, split]
    simp
  · rintro ⟨high, low, first, second, third, rest, received, lengths⟩
    have long : 5 ≤ reply.bytes.length := by simp [received]
    have split : reply.buffer = 0x16 :: 3 :: 3 :: high :: low :: 2 :: first :: second :: third ::
        3 :: 3 :: (rest ++ List.replicate (bufferSize - reply.bytes.length) 0) := by
      rw [Reply.buffer]
      generalize bufferSize - reply.bytes.length = missing
      rw [received]
      rfl
    rw [split, checkReply_eq_ok_iff]
    exact ⟨rfl, long, ⟨rfl, rfl⟩, rfl, lengths, rfl, rfl⟩

section Probe

variable {stream : TlsStream} {host : String} {group : UInt16} {ciphers sigschemes : List UInt16}
  {random sessionId : List.Vector UInt8 32} {hello : Bytes} {reply : Reply}

theorem tlsConnectWithGroup_eq_checkReply
    (encoded : tlsHello host group ciphers sigschemes random sessionId = .ok hello)
    (written : stream.write hello = .ok ()) (received : stream.read = .ok reply) :
    tlsConnectWithGroup stream host group ciphers sigschemes random sessionId =
      checkReply reply.buffer reply.bytes.length := by
  rw [tlsConnectWithGroup, encoded, Outcome.ok_bind, written, received]

theorem StartsServerHello.length_le {received : Bytes} (starts : StartsServerHello received) :
    11 ≤ received.length := by
  obtain ⟨_, _, _, _, _, rest, rfl, -⟩ := starts
  simp

/-- Once the hello is sent, the bytes received decide: a reply is accepted exactly if it reaches
through the start of a server hello, and all others are errors. -/
theorem tlsConnectWithGroup_of_reply (stream : TlsStream) (reply : Reply)
    (encoded : tlsHello host group ciphers sigschemes random sessionId = .ok hello)
    (written : stream.write hello = .ok ()) (received : stream.read = .ok reply) :
    (tlsConnectWithGroup stream host group ciphers sigschemes random sessionId = .ok () ↔
      11 ≤ reply.bytes.length ∧ StartsServerHello reply.bytes) ∧
    (¬StartsServerHello reply.bytes → ∃ error,
      tlsConnectWithGroup stream host group ciphers sigschemes random sessionId = .err error) := by
  rw [tlsConnectWithGroup_eq_checkReply encoded written received]
  have decided := checkReply_buffer_eq_ok_iff reply
  constructor
  · rw [decided]
    exact ⟨fun starts => ⟨starts.length_le, starts⟩, And.right⟩
  · intro other
    cases outcome : checkReply reply.buffer reply.bytes.length with
    | ok => exact absurd (decided.mp outcome) other
    | err error => exact ⟨error, rfl⟩
    | panic => exact absurd outcome (checkReply_ne_panic _ _)

end Probe

/-! ## Attempts -/

section Attempt

variable (host : String) (group : UInt16) (ciphers sigschemes : List UInt16)
  (random sessionId : List.Vector UInt8 32)

/-- What the loop of `tls_scan_target` sees of a group, if the handshake does not panic. -/
def groupAttempt (connected : Except String (String × TlsStream)) : Option GroupAttempt :=
  match connected with
  | .error error => some (.error error)
  | .ok (addr, stream) =>
    match tlsConnectWithGroup stream host group ciphers sigschemes random sessionId with
    | .ok () => some (.ok (addr, .ok ()))
    | .err error => some (.ok (addr, .error error))
    | .panic => none

end Attempt

/-- The first eleven bytes of a server hello. -/
def shortReply : Reply :=
  ⟨[0x16, 0x03, 0x03, 0x00, 0x5a, 0x02, 0x00, 0x00, 0x56, 0x03, 0x03], by decide⟩

def shortStream : TlsStream := ⟨fun _ => .ok (), .ok shortReply⟩

set_option maxRecDepth 2000 in
theorem shortReply_accepted :
    ∃ hello, tlsHello "localhost" 0x11ec [0x1301] [0x0403] (.replicate 32 0) (.replicate 32 0) =
        .ok hello ∧
      tlsConnectWithGroup shortStream "localhost" 0x11ec [0x1301] [0x0403] (.replicate 32 0)
        (.replicate 32 0) = .ok () := by
  have starts : StartsServerHello shortReply.bytes :=
    ⟨0x00, 0x5a, 0x00, 0x00, 0x56, [], rfl, by decide⟩
  obtain ⟨hello, encoded⟩ : ∃ hello, tlsHello "localhost" 0x11ec [0x1301] [0x0403]
      (.replicate 32 0) (.replicate 32 0) = .ok hello := ⟨_, rfl⟩
  have decided := tlsConnectWithGroup_of_reply shortStream shortReply encoded rfl rfl
  exact ⟨hello, encoded, decided.1.mpr ⟨by decide, starts⟩⟩

end PqcUtils.Scan

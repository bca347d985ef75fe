import PqcUtils.Scan.Ssh
import PqcUtils.Wire.Kexinit

/-!
# The parser of the scanner accepts the wire format

`parse_ssh_msg_kexinit` accepts a buffer exactly when it is one packet with a key
exchange message: the packet length is not larger than the buffer, and behind the
ten lists stand five bytes and the padding, and nothing else.
-/

namespace PqcUtils.Scan

open Bytes Text Wire

theorem readU32_eq_some_iff {buf : Bytes} {position : Nat} {value : UInt32} :
    readU32 buf position = some value ↔ ∃ rest, buf.drop position = ofUInt32 value ++ rest := by
  unfold readU32 readExact
  constructor
  · intro read
    match split : buf.drop position with
    | [] | [_] | [_, _] | [_, _, _] => simp [split] at read
    | a :: b :: c :: d :: rest =>
      simp only [split, List.length_cons, Nat.le_add_left, if_true, List.take_succ_cons,
        List.take_zero, Option.some.injEq] at read
      refine ⟨rest, ?_⟩
      have taken : takeLength (a :: b :: c :: d :: rest) = some ((be32 a b c d).toNat, rest) := rfl
      rw [(toNat_lt_of_takeLength taken).2, UInt32.ofNat_toNat, read]
  · rintro ⟨rest, split⟩
    simp [split, ofUInt32, be32_ofUInt32]

theorem readU8_eq_some_iff {buf : Bytes} {position : Nat} {value : UInt8} :
    readU8 buf position = some value ↔ ∃ rest, buf.drop position = value :: rest := by
  unfold readU8 readExact
  cases buf.drop position <;> simp

/-- The fields in front of the cookie, read one by one. -/
theorem readHeader_iff {buf : Bytes} {packetLength : UInt32} {paddingLength msgType : UInt8} :
    (readU32 buf 0 = some packetLength ∧ readU8 buf 4 = some paddingLength ∧
      readU8 buf 5 = some msgType) ↔
      buf = ofUInt32 packetLength ++ paddingLength :: msgType :: buf.drop 6 := by
  simp only [readU32_eq_some_iff, readU8_eq_some_iff]
  constructor
  · rintro ⟨⟨rest, atStart⟩, ⟨rest', atPadding⟩, rest'', atType⟩
    have behindLength := drop_add_of_drop _ atStart
    have behindPadding := drop_add_of_drop [paddingLength] atPadding
    have behindType := drop_add_of_drop [msgType] atType
    simp only [List.drop_zero, length_ofUInt32, Nat.zero_add, List.length_singleton,
      Nat.reduceAdd] at atStart behindLength behindPadding behindType
    rw [behindType, ← atType, behindPadding, ← atPadding, behindLength, ← atStart]
  · intro split
    have behindLength := drop_add_of_drop (ofUInt32 packetLength) (show buf.drop 0 = _ from split)
    have behindPadding := drop_add_of_drop [paddingLength] behindLength
    exact ⟨⟨_, split⟩, ⟨_, behindLength⟩, _, behindPadding⟩

theorem parseSshNameList_eq_ok_iff {buf : Bytes} {position next : Nat} {names : List String} :
    parseSshNameList buf position = .ok (names, next) ↔
      ∃ text, FitsLength text ∧ buf.drop position = encodeText text ++ buf.drop next ∧
        next = position + (encodeText text).length ∧ names = splitOn ',' text := by
  constructor
  · intro parsed
    unfold parseSshNameList at parsed
    split at parsed
    · cases parsed
    · next sz length =>
      split at parsed
      · cases parsed
      · next bytes content =>
        split at parsed
        · cases parsed
        · next text decoded =>
          simp only [Outcome.ok.injEq, Prod.mk.injEq] at parsed
          obtain ⟨rfl, rfl⟩ := parsed
          obtain ⟨rest, behind⟩ := readU32_eq_some_iff.mp length
          have body := drop_add_of_drop _ behind
          rw [length_ofUInt32] at body
          simp only [readExact, body] at content
          split at content
          · next enough =>
            have taken : takeText (buf.drop position) = some (text, rest.drop sz.toNat) := by
              cases content
              simp [behind, takeText, takeLength_ofUInt32, Nat.not_lt.mpr enough, decoded]
            obtain ⟨fits, split⟩ := encodeText_of_takeText taken
            have lengths := congrArg List.length (behind.symm.trans split)
            simp only [List.length_append, length_ofUInt32, List.length_drop] at lengths
            have covered : position + 4 + sz.toNat = position + (encodeText text).length := by omega
            refine ⟨text, fits, ?_, covered, rfl⟩
            rw [split, ← body, List.drop_drop]
          · cases content
  · rintro ⟨text, fits, split, rfl, rfl⟩
    have number : (UInt32.ofNat (toUtf8 text).length).toNat = (toUtf8 text).length :=
      UInt32.toNat_ofNat_of_lt' fits
    generalize buf.drop (position + (encodeText text).length) = rest at split
    rw [encodeText, List.append_assoc] at split
    have body := drop_add_of_drop _ split
    rw [length_ofUInt32] at body
    have length := readU32_eq_some_iff.mpr ⟨_, split⟩
    simp only [parseSshNameList, length, readExact, body, number, List.length_append,
      Nat.le_add_right, if_true, List.take_left', fromUtf8_toUtf8, length_encodeText]
    rw [Nat.add_assoc]

theorem parseSshNameLists_eq_ok_iff {buf : Bytes} {count position next : Nat}
    {lists : List (List String)} :
    parseSshNameLists buf count position = .ok (lists, next) ↔
      ∃ texts : List String, texts.length = count ∧ (∀ text ∈ texts, FitsLength text) ∧
        buf.drop position = texts.flatMap encodeText ++ buf.drop next ∧
        next = position + (texts.flatMap encodeText).length ∧
        lists = texts.map (splitOn ',') := by
  induction count generalizing position next lists with
  | zero =>
    simp only [parseSshNameLists, Outcome.pure_eq_ok, Outcome.ok.injEq, Prod.mk.injEq]
    constructor
    · rintro ⟨rfl, rfl⟩
      exact ⟨[], rfl, by simp, by simp, by simp, rfl⟩
    · rintro ⟨texts, empty, -, -, rfl, rfl⟩
      cases List.length_eq_zero_iff.mp empty
      exact ⟨rfl, rfl⟩
  | succ count ih =>
    simp only [parseSshNameLists, Outcome.bind_eq_ok_iff, Prod.exists, Outcome.pure_eq_ok,
      Outcome.ok.injEq, Prod.mk.injEq, parseSshNameList_eq_ok_iff, ih]
    constructor
    · rintro ⟨names, between, ⟨text, fits, first, rfl, rfl⟩, lists', next',
        ⟨texts, rfl, allFit, others, rfl, rfl⟩, rfl, rfl⟩
      refine ⟨text :: texts, rfl, by simpa using ⟨fits, allFit⟩, ?_, ?_, rfl⟩
      · rw [first, others, List.flatMap_cons, List.append_assoc]
      · rw [List.flatMap_cons, List.length_append, Nat.add_assoc]
    · rintro ⟨texts, length, allFit, split, rfl, rfl⟩
      cases texts with
      | nil => simp at length
      | cons text texts =>
        simp only [List.mem_cons, forall_eq_or_imp] at allFit
        rw [List.flatMap_cons, List.append_assoc] at split
        have behind := drop_add_of_drop _ split
        refine ⟨_, _, ⟨text, allFit.1, ?_, rfl, rfl⟩, _, _,
          ⟨texts, by simpa using length, allFit.2, ?_, rfl, rfl⟩, rfl, ?_⟩
        · rw [behind, split]
        · rw [behind, List.length_append, Nat.add_assoc]
        · rw [List.flatMap_cons, List.length_append, Nat.add_assoc]

def hostKeyAlgorithms (message : Kexinit) : List String :=
  splitOn ',' (message.otherNames.headD "")

def kexInitMsgOf (message : Kexinit) : KexInitMsg :=
  ⟨message.kexAlgorithms, hostKeyAlgorithms message⟩

theorem parseSshNameLists_succ_eq_ok_iff {buf : Bytes} (count : Nat) {position stop : Nat}
    {names : List String} {lists : List (List String)} :
    parseSshNameLists buf (count + 1) position = .ok (names :: lists, stop) ↔
      ∃ next, parseSshNameList buf position = .ok (names, next) ∧
        parseSshNameLists buf count next = .ok (lists, stop) := by
  simp only [parseSshNameLists, Outcome.bind_eq_ok_iff, Prod.exists, Outcome.pure_eq_ok,
    Outcome.ok.injEq, Prod.mk.injEq, List.cons.injEq]
  constructor
  · rintro ⟨_, next, first, _, _, others, ⟨rfl, rfl⟩, rfl⟩
    exact ⟨next, first, others⟩
  · rintro ⟨next, first, others⟩
    exact ⟨_, next, first, _, _, others, ⟨rfl, rfl⟩, rfl⟩

/-- The header fields are read one by one, and then ten lists in a row. -/
theorem parseSshMsgKexinit_eq_ok_iff_lists {buf : Bytes} {msg : KexInitMsg} :
    parseSshMsgKexinit buf = .ok msg ↔
      ¬UInt32.ofNat buf.length < 4 ∧
      ∃ packetLength, readU32 buf 0 = some packetLength ∧
      ¬UInt32.ofNat buf.length - 4 < packetLength ∧
      ∃ paddingLength, readU8 buf 4 = some paddingLength ∧ readU8 buf 5 = some 20 ∧
      ∃ kexAlgos hostKeyAlgos others stop,
        parseSshNameLists buf 10 22 = .ok (kexAlgos :: hostKeyAlgos :: others, stop) ∧
        (UInt32.ofNat buf.length).toNat = stop + paddingLength.toNat + 5 ∧
        msg = ⟨kexAlgos, hostKeyAlgos⟩ := by
  simp only [parseSshMsgKexinit, Outcome.bind_eq_ok_iff, Outcome.rejectIf_eq_ok_iff, exists_const,
    Outcome.ofOption_eq_ok_iff, Prod.exists, Outcome.pure_eq_ok, Outcome.ok.injEq, ne_eq, not_not,
    parseSshNameLists_succ_eq_ok_iff 9, parseSshNameLists_succ_eq_ok_iff 8]
  constructor
  · rintro ⟨large, packetLength, length, bounded, paddingLength, padding, msgType, number, rfl,
      kexAlgos, _, first, hostKeyAlgos, _, second, others, stop, rest, total, rfl⟩
    exact ⟨large, packetLength, length, bounded, paddingLength, padding, number, kexAlgos,
      hostKeyAlgos, others, stop, ⟨_, first, _, second, rest⟩, total, rfl⟩
  · rintro ⟨large, packetLength, length, bounded, paddingLength, padding, number, kexAlgos,
      hostKeyAlgos, others, stop, ⟨_, first, _, second, rest⟩, total, rfl⟩
    exact ⟨large, packetLength, length, bounded, paddingLength, padding, _, number, rfl, kexAlgos,
      _, first, hostKeyAlgos, _, second, others, stop, rest, total, rfl⟩

/-- Every accepted buffer is a packet; its length is compared after it is cut to 32 bits. -/
theorem parseSshMsgKexinit_eq_ok_iff {buf : Bytes} {msg : KexInitMsg} :
    parseSshMsgKexinit buf = .ok msg ↔
      ∃ message packetLength paddingLength tail,
        buf = message.packet packetLength paddingLength tail ∧
        ¬UInt32.ofNat buf.length < 4 ∧ ¬UInt32.ofNat buf.length - 4 < packetLength ∧
        (UInt32.ofNat buf.length).toNat = 5 + message.encode.length + paddingLength.toNat + 5 ∧
        msg = kexInitMsgOf message := by
  simp only [parseSshMsgKexinit_eq_ok_iff_lists, parseSshNameLists_eq_ok_iff]
  constructor
  · rintro ⟨large, packetLength, length, bounded, paddingLength, padding, type, kexAlgos,
      hostKeyAlgos, others, stop, ⟨texts, count, fits, atLists, stopEq, named⟩, total, rfl⟩
    obtain ⟨kexNames, texts, rfl⟩ := List.exists_cons_of_length_eq_add_one count
    obtain ⟨hostKeyNames, texts, rfl⟩ :=
      List.exists_cons_of_length_eq_add_one (Nat.succ.inj count)
    simp only [List.map_cons, List.cons.injEq] at named
    obtain ⟨rfl, rfl, -⟩ := named
    have header := readHeader_iff.mp ⟨length, padding, type⟩
    have nonempty : (kexNames :: hostKeyNames :: texts).flatMap encodeText ≠ [] := by
      simp [encodeText, ofUInt32]
    have inside := length_of_drop atLists (List.append_ne_nil_of_left_ne_nil nonempty _)
    obtain ⟨cookie, length_cookie, atCookie⟩ := exists_field buf 6 16 (by omega)
    refine ⟨⟨cookie, kexNames, hostKeyNames :: texts, length_cookie, by simpa using count, fits⟩,
      packetLength, paddingLength, buf.drop stop, ?_, large, bounded, ?_, rfl⟩
    · rw [Kexinit.packet, Kexinit.encode, List.cons_append, List.append_assoc, ← atLists,
        ← atCookie]
      exact header
    · rw [total, stopEq]
      simp [Kexinit.encode, length_cookie]
      omega
  · rintro ⟨message, packetLength, paddingLength, tail, split, large, bounded, total, rfl⟩
    have atCookie : buf.drop 6 = message.cookie ++
        ((message.kexNames :: message.otherNames).flatMap encodeText ++ tail) := by
      rw [split, Kexinit.packet, Kexinit.encode, List.cons_append, List.append_assoc]
      rfl
    have header : buf = ofUInt32 packetLength ++ paddingLength :: 20 :: buf.drop 6 := by
      rw [atCookie, split, Kexinit.packet, Kexinit.encode, List.cons_append, List.append_assoc]
    obtain ⟨length, padding, type⟩ := readHeader_iff.mpr header
    have atLists := drop_add_of_drop message.cookie atCookie
    have atTail := drop_add_of_drop _ atLists
    rw [message.length_cookie] at atLists atTail
    rw [← atTail] at atLists
    obtain ⟨hostKeyNames, otherNames, others⟩ := message.exists_otherNames
    refine ⟨large, packetLength, length, bounded, paddingLength, padding, type,
      message.kexAlgorithms, hostKeyAlgorithms message, otherNames.map (splitOn ','), _,
      ⟨message.kexNames :: message.otherNames, by simp [message.length_otherNames], message.fits,
        atLists, rfl, by simp [others, Kexinit.kexAlgorithms, hostKeyAlgorithms]⟩, ?_, rfl⟩
    rw [total]
    simp [Kexinit.encode, message.length_cookie]
    omega

/-- A buffer that is one packet: its length covers no more than there is, and behind the lists
stand five bytes and the padding. -/
def IsPacketOf (message : Kexinit) (buf : Bytes) : Prop :=
  ∃ packetLength paddingLength tail, buf = message.packet packetLength paddingLength tail ∧
    packetLength.toNat + 4 ≤ buf.length ∧ tail.length = 5 + paddingLength.toNat

theorem packetLength_le_iff {length packetLength : UInt32} :
    ¬length < 4 ∧ ¬length - 4 < packetLength ↔ packetLength.toNat + 4 ≤ length.toNat := by
  have four : (4 : UInt32).toNat = 4 := rfl
  rw [UInt32.lt_iff_toNat_lt, UInt32.lt_iff_toNat_lt, four]
  by_cases large : 4 ≤ length.toNat
  · have difference : (length - 4).toNat = length.toNat - 4 :=
      UInt32.toNat_sub_of_le _ _ (UInt32.le_iff_toNat_le.mpr large)
    omega
  · omega

theorem parseSshMsgKexinit_of_small {buf : Bytes} (small : buf.length < 2 ^ 32)
    {msg : KexInitMsg} : parseSshMsgKexinit buf = .ok msg ↔
      ∃ message, IsPacketOf message buf ∧ msg = kexInitMsgOf message := by
  have number : (UInt32.ofNat buf.length).toNat = buf.length := UInt32.toNat_ofNat_of_lt' small
  rw [parseSshMsgKexinit_eq_ok_iff]
  constructor
  · rintro ⟨message, packetLength, paddingLength, tail, split, large, bounded, total, rfl⟩
    have length := message.length_packet packetLength paddingLength tail
    have covered := packetLength_le_iff.mp ⟨large, bounded⟩
    rw [← split] at length
    exact ⟨message, ⟨packetLength, paddingLength, tail, split, by omega, by omega⟩, rfl⟩
  · rintro ⟨message, ⟨packetLength, paddingLength, tail, split, covered, padding⟩, rfl⟩
    have length := message.length_packet packetLength paddingLength tail
    rw [← split] at length
    rw [← number] at covered
    obtain ⟨large, bounded⟩ := packetLength_le_iff.mpr covered
    exact ⟨message, packetLength, paddingLength, tail, split, large, bounded, by omega, rfl⟩

/-- Below 2^32 bytes the accepted buffers are spelled out field by field. -/
theorem parseSshMsgKexinit_fields {buf : Bytes} (small : buf.length < 2 ^ 32) (msg : KexInitMsg) :
    parseSshMsgKexinit buf = .ok msg ↔
      ∃ (packetLength : UInt32) (paddingLength : UInt8) (cookie : Bytes) (texts : List String)
        (tail : Bytes),
        buf = ofUInt32 packetLength ++ paddingLength :: 20 ::
          (cookie ++ (texts.flatMap encodeText ++ tail)) ∧
        packetLength.toNat + 4 ≤ buf.length ∧ cookie.length = 16 ∧
        texts.length = 10 ∧ (∀ text ∈ texts, FitsLength text) ∧
        tail.length = 5 + paddingLength.toNat ∧
        texts[0]?.map (splitOn ',') = some msg.kexAlgos ∧
        texts[1]?.map (splitOn ',') = some msg.hostKeyAlgos := by
  rw [parseSshMsgKexinit_of_small small]
  constructor
  · rintro ⟨message, ⟨packetLength, paddingLength, tail, split, covered, padding⟩, rfl⟩
    obtain ⟨hostKeyNames, otherNames, others⟩ := message.exists_otherNames
    refine ⟨packetLength, paddingLength, message.cookie, message.kexNames :: message.otherNames,
      tail, ?_, covered, message.length_cookie, by simp [message.length_otherNames], message.fits,
      padding, rfl, ?_⟩
    · simp [split, Kexinit.packet, Kexinit.encode]
    · simp [others, kexInitMsgOf, hostKeyAlgorithms]
  · rintro ⟨packetLength, paddingLength, cookie, texts, tail, split, covered, cookieLength, count,
      fits, padding, kex, hostKey⟩
    obtain ⟨kexNames, texts, rfl⟩ := List.exists_cons_of_length_eq_add_one count
    obtain ⟨hostKeyNames, otherNames, rfl⟩ :=
      List.exists_cons_of_length_eq_add_one (Nat.succ.inj count)
    refine ⟨⟨cookie, kexNames, hostKeyNames :: otherNames, cookieLength, by simpa using count,
      fits⟩, ⟨packetLength, paddingLength, tail, ?_, covered, padding⟩, ?_⟩
    · simp [split, Kexinit.packet, Kexinit.encode]
    · simp only [List.getElem?_cons_zero, List.getElem?_cons_succ, Option.map_some,
        Option.some.injEq] at kex hostKey
      obtain ⟨kexAlgos, hostKeyAlgos⟩ := msg
      subst kex hostKey
      rfl

def twoNames : Bytes :=
  [0, 0, 0, 64, 0, 20] ++ List.replicate 16 0 ++ [0, 0, 0, 1, 97] ++ [0, 0, 0, 1, 98] ++
    List.replicate 32 0 ++ List.replicate 5 0

theorem parseSshMsgKexinit_twoNames :
    ∃ (packetLength : UInt32) (paddingLength : UInt8) (cookie : Bytes) (texts : List String)
      (tail : Bytes),
      twoNames = ofUInt32 packetLength ++ paddingLength :: 20 ::
        (cookie ++ (texts.flatMap encodeText ++ tail)) ∧
      packetLength.toNat + 4 ≤ twoNames.length ∧ cookie.length = 16 ∧
      texts.length = 10 ∧ (∀ text ∈ texts, FitsLength text) ∧
      tail.length = 5 + paddingLength.toNat ∧
      texts[0]?.map (splitOn ',') = some ["a"] ∧ texts[1]?.map (splitOn ',') = some ["b"] :=
  (parseSshMsgKexinit_fields (by decide) ⟨["a"], ["b"]⟩).mp (by decide +kernel)

end PqcUtils.Scan

import PqcUtils.Scan.Ssh.Parsing

/-!
# A name list without a length

The parser unwraps the length of a name list. It panics on the buffers that end
inside such a length, behind a header that it accepts and less than ten lists.
-/

namespace PqcUtils.Scan

open Bytes Text Wire

/-- The packet length covers no more than there is, and the message number is right. -/
def HasKexinitHeader (buf : Bytes) : Prop :=
  ∃ packetLength paddingLength rest, buf = ofUInt32 packetLength ++ paddingLength :: 20 :: rest ∧
    packetLength.toNat + 4 ≤ buf.length % 2 ^ 32

/-- Behind the cookie stand less than ten lists, and a part of the length of the next one. -/
def EndsInListLength (buf : Bytes) : Prop :=
  ∃ (texts : List String) (tail : Bytes), texts.length < 10 ∧ (∀ text ∈ texts, FitsLength text) ∧
    buf.drop 22 = texts.flatMap encodeText ++ tail ∧ tail.length < 4

theorem readU32_eq_none_iff {buf : Bytes} {position : Nat} :
    readU32 buf position = none ↔ (buf.drop position).length < 4 := by
  unfold readU32 readExact
  match buf.drop position with
  | [] | [_] | [_, _] | [_, _, _] => simp
  | _ :: _ :: _ :: _ :: rest => simp

theorem parseSshNameList_eq_panic_iff {buf : Bytes} {position : Nat} :
    parseSshNameList buf position = .panic ↔ (buf.drop position).length < 4 := by
  rw [← readU32_eq_none_iff]
  constructor
  · intro panics
    unfold parseSshNameList at panics
    split at panics
    · next missing => exact missing
    · split at panics
      · cases panics
      · split at panics <;> cases panics
  · intro missing
    rw [parseSshNameList, missing]

theorem parseSshNameLists_succ_eq_panic_iff {buf : Bytes} (count : Nat) {position : Nat} :
    parseSshNameLists buf (count + 1) position = .panic ↔
      parseSshNameList buf position = .panic ∨
      ∃ names next, parseSshNameList buf position = .ok (names, next) ∧
        parseSshNameLists buf count next = .panic := by
  simp only [parseSshNameLists, Outcome.bind_eq_panic_iff, Prod.exists, Outcome.pure_eq_ok,
    reduceCtorEq, and_false, exists_false, or_false]

theorem parseSshNameLists_eq_panic_iff {buf : Bytes} {count position : Nat} :
    parseSshNameLists buf count position = .panic ↔
      ∃ (texts : List String) (tail : Bytes), texts.length < count ∧
        (∀ text ∈ texts, FitsLength text) ∧
        buf.drop position = texts.flatMap encodeText ++ tail ∧ tail.length < 4 := by
  induction count generalizing position with
  | zero => simp [parseSshNameLists]
  | succ count ih =>
    rw [parseSshNameLists_succ_eq_panic_iff, parseSshNameList_eq_panic_iff]
    constructor
    · rintro (short | ⟨names, next, first, later⟩)
      · exact ⟨[], buf.drop position, by simp, by simp, by simp, short⟩
      · obtain ⟨text, fits, split, -, -⟩ := parseSshNameList_eq_ok_iff.mp first
        obtain ⟨texts, tail, few, allFit, others, short⟩ := ih.mp later
        refine ⟨text :: texts, tail, by simpa using few, by simpa using ⟨fits, allFit⟩, ?_, short⟩
        rw [split, others, List.flatMap_cons, List.append_assoc]
    · rintro ⟨texts, tail, few, allFit, split, short⟩
      cases texts with
      | nil => exact .inl (by simpa [split] using short)
      | cons text texts =>
        simp only [List.mem_cons, forall_eq_or_imp] at allFit
        rw [List.flatMap_cons, List.append_assoc] at split
        have behind := drop_add_of_drop _ split
        refine .inr ⟨_, _, parseSshNameList_eq_ok_iff.mpr ⟨text, allFit.1, ?_, rfl, rfl⟩,
          ih.mpr ⟨texts, tail, by simpa using few, allFit.2, behind, short⟩⟩
        rw [behind, split]

/-- The fields before the lists are read with errors, so only the lists panic. -/
theorem parseSshMsgKexinit_eq_panic_iff_lists {buf : Bytes} :
    parseSshMsgKexinit buf = .panic ↔
      ¬UInt32.ofNat buf.length < 4 ∧
      ∃ packetLength, readU32 buf 0 = some packetLength ∧
      ¬UInt32.ofNat buf.length - 4 < packetLength ∧
      (∃ paddingLength, readU8 buf 4 = some paddingLength) ∧ readU8 buf 5 = some 20 ∧
      parseSshNameLists buf 10 22 = .panic := by
  simp only [parseSshMsgKexinit, Outcome.bind_eq_panic_iff, Outcome.rejectIf_ne_panic,
    Outcome.rejectIf_eq_ok_iff, Outcome.ofOption_ne_panic, Outcome.ofOption_eq_ok_iff, exists_const,
    Outcome.pure_eq_ok, reduceCtorEq, and_false, or_false, false_or, Prod.exists, ne_eq, not_not,
    parseSshNameLists_succ_eq_panic_iff 9, parseSshNameLists_succ_eq_panic_iff 8]
  constructor
  · rintro ⟨large, packetLength, length, bounded, paddingLength, padding, msgType, number, rfl,
      lists⟩
    exact ⟨large, packetLength, length, bounded, ⟨paddingLength, padding⟩, number, lists⟩
  · rintro ⟨large, packetLength, length, bounded, ⟨paddingLength, padding⟩, number, lists⟩
    exact ⟨large, packetLength, length, bounded, paddingLength, padding, _, number, rfl, lists⟩

theorem hasKexinitHeader_iff {buf : Bytes} :
    HasKexinitHeader buf ↔
      ¬UInt32.ofNat buf.length < 4 ∧
      ∃ packetLength, readU32 buf 0 = some packetLength ∧
      ¬UInt32.ofNat buf.length - 4 < packetLength ∧
      (∃ paddingLength, readU8 buf 4 = some paddingLength) ∧ readU8 buf 5 = some 20 := by
  constructor
  · rintro ⟨packetLength, paddingLength, rest, split, covered⟩
    have behind : buf.drop 6 = rest := by
      rw [split]
      rfl
    obtain ⟨length, padding, type⟩ := readHeader_iff.mpr (behind.symm ▸ split)
    have inBits : packetLength.toNat + 4 ≤ (UInt32.ofNat buf.length).toNat := covered
    obtain ⟨large, bounded⟩ := packetLength_le_iff.mpr inBits
    exact ⟨large, packetLength, length, bounded, ⟨paddingLength, padding⟩, type⟩
  · rintro ⟨large, packetLength, length, bounded, ⟨paddingLength, padding⟩, type⟩
    exact ⟨packetLength, paddingLength, buf.drop 6, readHeader_iff.mp ⟨length, padding, type⟩,
      packetLength_le_iff.mp ⟨large, bounded⟩⟩

/-- Every buffer is parsed without a panic, except where it ends inside the length of a list. -/
theorem parseSshMsgKexinit_ne_panic_iff (buf : Bytes) :
    parseSshMsgKexinit buf ≠ .panic ↔ ¬(HasKexinitHeader buf ∧ EndsInListLength buf) := by
  rw [not_iff_not, parseSshMsgKexinit_eq_panic_iff_lists, hasKexinitHeader_iff,
    parseSshNameLists_eq_panic_iff]
  simp only [EndsInListLength]
  constructor
  · rintro ⟨large, packetLength, length, bounded, padding, number, lists⟩
    exact ⟨⟨large, packetLength, length, bounded, padding, number⟩, lists⟩
  · rintro ⟨⟨large, packetLength, length, bounded, padding, number⟩, lists⟩
    exact ⟨large, packetLength, length, bounded, padding, number, lists⟩

def onlyNumber : Bytes := [0, 0, 0, 2, 0, 20]

/-- The length of the first list cannot be read, and that is unwrapped. -/
theorem onlyNumber_panics : parseSshMsgKexinit onlyNumber = .panic := by decide

end PqcUtils.Scan

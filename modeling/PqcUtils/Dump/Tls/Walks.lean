import PqcUtils.Dump.Tls
import PqcUtils.Library.Tagged
import PqcUtils.Wire.ClientHello

/-!
# The loops over the extensions of a client hello

A loop walks along tagged items inside a buffer. What it returns depends on the
bytes between its offset and its end alone: on the items in them, and on whether
it is stuck on an item that is cut off.
-/

namespace PqcUtils.Dump

open Bytes Wire

def readExtensionGroups (data : Bytes) (extType extLen : UInt16) (payload : Nat) :
    Outcome String (List UInt16) :=
  if extType = 0x0033 then do
    Outcome.rejectIf (extLen.toNat < 2) "KeyShare extension too short"
    readKeyShares data (payload + extLen.toNat) (payload + 2)
  else
    pure []

theorem readExtensions_eq (data : Bytes) (extensionsEnd offset : Nat) :
    readExtensions data extensionsEnd offset =
      if offset + 4 ≤ extensionsEnd then do
        let extType ← index16 data offset
        let extLen ← index16 data (offset + 2)
        Outcome.rejectIf (extensionsEnd < offset + 4 + extLen.toNat)
          "Extension length goes beyond extensions block"
        let keyshareGroups ← readExtensionGroups data extType extLen (offset + 4)
        let more ← readExtensions data extensionsEnd (offset + 4 + extLen.toNat)
        pure (keyshareGroups ++ more)
      else
        pure [] := by
  rw [readExtensions]
  split
  · refine bind_congr fun extType => bind_congr fun extLen => bind_congr fun _ => ?_
    by_cases keyShare : extType = 0x0033
    · simp only [if_pos keyShare, readExtensionGroups]
      cases Outcome.rejectIf (extLen.toNat < 2) "KeyShare extension too short" <;> rfl
    · simp only [if_neg keyShare, readExtensionGroups]
  · rfl

/-! ## Key shares -/

def sharesGroups (shares : Bytes) : Outcome String (List UInt16) :=
  if (Tagged.cutOff (Tagged.split shares).2).isSome then
    .err "KeyShare key_exchange data too short"
  else
    .ok ((Tagged.split shares).1.map Tagged.tag)

theorem index16_of_header {data rest content : Bytes} {offset : Nat} {tag length : UInt16}
    (remaining : data.drop offset = ofUInt16 tag ++ (ofUInt16 length ++ content) ++ rest) :
    index16 data offset = (.ok tag : Outcome String UInt16) ∧
      index16 data (offset + 2) = (.ok length : Outcome String UInt16) ∧
      data.drop (offset + 4) = content ++ rest := by
  simp only [List.append_assoc] at remaining
  have atLength : data.drop (offset + 2) = _ := drop_add_of_drop _ remaining
  have atContent : data.drop (offset + 4) = _ := drop_add_of_drop _ atLength
  exact ⟨index16_of_drop remaining, index16_of_drop atLength, atContent⟩

theorem readKeyShares_eq_sharesGroups {data shares rest : Bytes} {stop ksOffset : Nat}
    (remaining : data.drop ksOffset = shares ++ rest) (ends : stop = ksOffset + shares.length) :
    readKeyShares data stop ksOffset = sharesGroups shares := by
  induction left : shares.length using Nat.strongRecOn generalizing ksOffset shares with
  | ind left ih =>
    rw [readKeyShares, sharesGroups]
    by_cases long : ksOffset + 4 ≤ stop
    · obtain ⟨group, keyLen, content, rfl⟩ := Tagged.exists_header (show 4 ≤ shares.length by omega)
      obtain ⟨readGroup, readKeyLen, atContent⟩ := index16_of_header remaining
      simp only [List.length_append, length_ofUInt16] at ends left
      rw [if_pos long, readGroup, readKeyLen, Tagged.split_header]
      simp only [Outcome.ok_bind]
      by_cases complete : keyLen.toNat ≤ content.length
      · have behind : data.drop (ksOffset + 4 + keyLen.toNat) =
            content.drop keyLen.toNat ++ rest := by
          rw [← List.drop_drop, atContent, List.drop_append_of_le_length complete]
        have later := ih (content.drop keyLen.toNat).length (by rw [List.length_drop]; omega)
          behind (by rw [List.length_drop]; omega) rfl
        rw [Outcome.rejectIf_of_not (by omega), Outcome.ok_bind, later, sharesGroups,
          if_pos complete]
        split <;> rfl
      · rw [Outcome.rejectIf_of (by omega), Outcome.err_bind, if_neg complete,
          Tagged.cutOff_header, if_pos (Nat.lt_of_not_le complete)]
        rfl
    · have short : shares.length < 4 := by omega
      rw [if_neg long, Tagged.split_eq_of_short short, Tagged.cutOff_of_short short]
      rfl

/-! ## Extensions -/

/-- What one extension adds to the groups. Of one with key shares the first two bytes are
skipped. -/
def extensionGroups (extension : Tagged) : Outcome String (List UInt16) :=
  if extension.tag = keyShareType then do
    Outcome.rejectIf (extension.content.length < 2) "KeyShare extension too short"
    sharesGroups (extension.content.drop 2)
  else
    pure []

/-- The groups of the extensions in front of a rest that the loop is stuck on. -/
def blockGroups : List Tagged → Bytes → Outcome String (List UInt16)
  | [], tail =>
    if (Tagged.cutOff tail).isSome then .err "Extension length goes beyond extensions block"
    else pure []
  | extension :: extensions, tail => do
    let groups ← extensionGroups extension
    let more ← blockGroups extensions tail
    pure (groups ++ more)

theorem readExtensionGroups_eq {data content rest : Bytes} {payload : Nat} (extType : UInt16)
    {extLen : UInt16} (remaining : data.drop payload = content ++ rest)
    (length : content.length = extLen.toNat) :
    readExtensionGroups data extType extLen payload = extensionGroups ⟨extType, content⟩ := by
  by_cases keyShare : extType = 0x0033
  · rw [readExtensionGroups, extensionGroups, if_pos keyShare,
      if_pos (show extType = keyShareType from keyShare), length]
    by_cases short : extLen.toNat < 2
    · rw [Outcome.rejectIf_of short, Outcome.err_bind, Outcome.err_bind]
    · have shares : data.drop (payload + 2) = content.drop 2 ++ rest := by
        rw [← List.drop_drop, remaining, List.drop_append_of_le_length (by omega)]
      rw [Outcome.rejectIf_of_not short, Outcome.ok_bind, Outcome.ok_bind,
        readKeyShares_eq_sharesGroups shares]
      rw [List.length_drop]
      omega
  · rw [readExtensionGroups, extensionGroups, if_neg keyShare,
      if_neg (show ¬extType = keyShareType from keyShare)]

theorem readExtensions_eq_blockGroups {data block rest : Bytes} {extensionsEnd offset : Nat}
    (remaining : data.drop offset = block ++ rest) (ends : extensionsEnd = offset + block.length) :
    readExtensions data extensionsEnd offset =
      blockGroups (Tagged.split block).1 (Tagged.split block).2 := by
  induction left : block.length using Nat.strongRecOn generalizing offset block with
  | ind left ih =>
    rw [readExtensions_eq]
    by_cases long : offset + 4 ≤ extensionsEnd
    · obtain ⟨extType, extLen, content, rfl⟩ :=
        Tagged.exists_header (show 4 ≤ block.length by omega)
      obtain ⟨readType, readLen, atContent⟩ := index16_of_header remaining
      simp only [List.length_append, length_ofUInt16] at ends left
      rw [if_pos long, readType, Outcome.ok_bind, readLen, Outcome.ok_bind, Tagged.split_header]
      by_cases complete : extLen.toNat ≤ content.length
      · have behind : data.drop (offset + 4 + extLen.toNat) =
            content.drop extLen.toNat ++ rest := by
          rw [← List.drop_drop, atContent, List.drop_append_of_le_length complete]
        have later := ih (content.drop extLen.toNat).length (by rw [List.length_drop]; omega)
          behind (by rw [List.length_drop]; omega) rfl
        have own : data.drop (offset + 4) =
            content.take extLen.toNat ++ (content.drop extLen.toNat ++ rest) := by
          rw [atContent, ← List.append_assoc, List.take_append_drop]
        rw [Outcome.rejectIf_of_not (by omega), Outcome.ok_bind,
          readExtensionGroups_eq extType own (List.length_take_of_le complete), later,
          if_pos complete]
        rfl
      · rw [Outcome.rejectIf_of (by omega), Outcome.err_bind, if_neg complete]
        simp only [blockGroups]
        rw [Tagged.cutOff_header, if_pos (Nat.lt_of_not_le complete)]
        rfl
    · have short : block.length < 4 := by omega
      rw [if_neg long, Tagged.split_eq_of_short short]
      simp only [blockGroups]
      rw [Tagged.cutOff_of_short short]
      rfl

/-! ## What the walks return -/

theorem sharesGroups_ne_panic (shares : Bytes) : sharesGroups shares ≠ .panic := by
  unfold sharesGroups
  split <;> simp

theorem sharesGroups_eq_ok {shares : Bytes} {groups : List UInt16}
    (read : sharesGroups shares = .ok groups) :
    groups = (Tagged.split shares).1.map Tagged.tag := by
  unfold sharesGroups at read
  split at read
  · cases read
  · exact (Outcome.ok.inj read).symm

theorem extensionGroups_ne_panic (extension : Tagged) : extensionGroups extension ≠ .panic := by
  intro panics
  unfold extensionGroups at panics
  split at panics
  · obtain ⟨-, panics⟩ := Outcome.rejectIf_bind_eq_panic_iff.mp panics
    exact sharesGroups_ne_panic _ panics
  · cases panics

theorem blockGroups_ne_panic (extensions : List Tagged) (tail : Bytes) :
    blockGroups extensions tail ≠ .panic := by
  induction extensions with
  | nil =>
    unfold blockGroups
    split <;> simp
  | cons extension extensions ih =>
    intro panics
    rcases Outcome.bind_eq_panic_iff.mp panics with first | ⟨groups, -, panics⟩
    · exact extensionGroups_ne_panic extension first
    · rcases Outcome.bind_eq_panic_iff.mp panics with later | ⟨more, -, panics⟩
      · exact ih later
      · cases panics

def offeredGroups (extension : Tagged) : List UInt16 :=
  if extension.tag = keyShareType then
    (Tagged.split (extension.content.drop 2)).1.map Tagged.tag
  else []

theorem extensionGroups_eq_ok {extension : Tagged} {groups : List UInt16}
    (read : extensionGroups extension = .ok groups) : groups = offeredGroups extension := by
  unfold extensionGroups at read
  unfold offeredGroups
  split at read
  · next keyShare =>
    obtain ⟨-, read⟩ := Outcome.rejectIf_bind_eq_ok_iff.mp read
    rw [if_pos keyShare, sharesGroups_eq_ok read]
  · next other =>
    rw [if_neg other]
    exact (Outcome.ok.inj read).symm

theorem blockGroups_eq_ok {extensions : List Tagged} {tail : Bytes} {groups : List UInt16}
    (read : blockGroups extensions tail = .ok groups) :
    groups = extensions.flatMap offeredGroups := by
  induction extensions generalizing groups with
  | nil =>
    unfold blockGroups at read
    split at read
    · cases read
    · exact (Outcome.ok.inj read).symm
  | cons extension extensions ih =>
    obtain ⟨first, readFirst, read⟩ := Outcome.bind_eq_ok_iff.mp read
    obtain ⟨more, readMore, read⟩ := Outcome.bind_eq_ok_iff.mp read
    cases read
    rw [List.flatMap_cons, extensionGroups_eq_ok readFirst, ih readMore]

end PqcUtils.Dump

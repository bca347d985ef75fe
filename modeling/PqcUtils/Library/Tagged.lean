import PqcUtils.Library.Bytes

/-!
# Tagged items

A row of items, each a tag in two bytes, a length in two bytes and as many bytes
of content. A reader takes items while they are complete and is stuck on the
rest. `split` is that reader; a row of items in front of anything that is stuck
is the only way in which it splits its input.
-/

namespace PqcUtils.Bytes

structure Tagged where
  tag : UInt16
  content : Bytes
  deriving DecidableEq, Repr

namespace Tagged

def encode (item : Tagged) : Bytes := ofUInt16 item.tag ++ vector16 item.content

@[simp] theorem length_encode (item : Tagged) : item.encode.length = 4 + item.content.length := by
  simp [encode]
  omega

def Fits (item : Tagged) : Prop := item.content.length < 2 ^ 16

instance (item : Tagged) : Decidable item.Fits :=
  inferInstanceAs (Decidable (item.content.length < 2 ^ 16))

theorem fits_of_length_flatMap {items : List Tagged}
    (short : (items.flatMap encode).length < 2 ^ 16) : ∀ item ∈ items, item.Fits := by
  intro item membership
  obtain ⟨front, back, rfl⟩ := List.append_of_mem membership
  simp only [List.flatMap_append, List.flatMap_cons, List.length_append, length_encode] at short
  rw [Fits]
  omega

/-- The items at the start of the data, and what is left behind them. -/
def split : Bytes → List Tagged × Bytes
  | a :: b :: c :: d :: rest =>
    if (be16 c d).toNat ≤ rest.length then
      let (items, tail) := split (rest.drop (be16 c d).toNat)
      (⟨be16 a b, rest.take (be16 c d).toNat⟩ :: items, tail)
    else
      ([], a :: b :: c :: d :: rest)
  | data => ([], data)
termination_by data => data.length
decreasing_by
  simp only [List.length_drop, List.length_cons]
  omega

def cutOff : Bytes → Option UInt16
  | a :: b :: c :: d :: rest => if rest.length < (be16 c d).toNat then some (be16 a b) else none
  | _ => none

/-- No item can be taken: there is no whole header, or its content is cut off. -/
def Stuck (tail : Bytes) : Prop := tail.length < 4 ∨ (cutOff tail).isSome

/-- The data is a row of items in front of a stuck rest. -/
structure Splits (data : Bytes) (items : List Tagged) (tail : Bytes) : Prop where
  eq : data = items.flatMap encode ++ tail
  fits : ∀ item ∈ items, item.Fits
  stuck : Stuck tail

theorem split_eq_of_short {data : Bytes} (short : data.length < 4) : split data = ([], data) := by
  rw [split]
  rintro a b c d rest rfl
  simp only [List.length_cons] at short
  omega

theorem cutOff_of_short {data : Bytes} (short : data.length < 4) : cutOff data = none := by
  unfold cutOff
  split
  · simp only [List.length_cons] at short
    omega
  · rfl

theorem split_of_cutOff {data : Bytes} {tag : UInt16} (cut : cutOff data = some tag) :
    split data = ([], data) := by
  unfold cutOff at cut
  split at cut
  · next a b c d rest =>
    split at cut
    · next short => rw [split, if_neg (by omega)]
    · cases cut
  · cases cut

theorem split_of_stuck {data : Bytes} (stuck : Stuck data) : split data = ([], data) := by
  rcases stuck with short | cut
  · exact split_eq_of_short short
  · obtain ⟨tag, cut⟩ := Option.isSome_iff_exists.mp cut
    exact split_of_cutOff cut

theorem exists_header {data : Bytes} (long : 4 ≤ data.length) :
    ∃ tag length rest, data = ofUInt16 tag ++ (ofUInt16 length ++ rest) := by
  obtain ⟨tag, rest, rfl⟩ := exists_ofUInt16_append (show 2 ≤ data.length by omega)
  rw [List.length_append, length_ofUInt16] at long
  obtain ⟨length, rest, rfl⟩ := exists_ofUInt16_append (show 2 ≤ rest.length by omega)
  exact ⟨tag, length, rest, rfl⟩

theorem split_header (tag length : UInt16) (rest : Bytes) :
    split (ofUInt16 tag ++ (ofUInt16 length ++ rest)) =
      if length.toNat ≤ rest.length then
        (⟨tag, rest.take length.toNat⟩ :: (split (rest.drop length.toNat)).1,
          (split (rest.drop length.toNat)).2)
      else ([], ofUInt16 tag ++ (ofUInt16 length ++ rest)) := by
  simp only [ofUInt16, List.cons_append, List.nil_append]
  rw [split, be16_ofUInt16, be16_ofUInt16]

theorem cutOff_header (tag length : UInt16) (rest : Bytes) :
    cutOff (ofUInt16 tag ++ (ofUInt16 length ++ rest)) =
      if rest.length < length.toNat then some tag else none := by
  simp only [ofUInt16, List.cons_append, List.nil_append, cutOff, be16_ofUInt16]

theorem cutOff_eq_some_iff {tail : Bytes} {tag : UInt16} :
    cutOff tail = some tag ↔
      ∃ length rest, tail = ofUInt16 tag ++ (ofUInt16 length ++ rest) ∧
        rest.length < length.toNat := by
  constructor
  · intro cut
    have long : 4 ≤ tail.length := by
      by_contra short
      simp [cutOff_of_short (Nat.lt_of_not_le short)] at cut
    obtain ⟨tag', length, rest, rfl⟩ := exists_header long
    rw [cutOff_header] at cut
    split at cut
    · next more =>
      cases cut
      exact ⟨length, rest, rfl, more⟩
    · cases cut
  · rintro ⟨length, rest, rfl, more⟩
    rw [cutOff_header, if_pos more]

theorem split_encode_append {item : Tagged} (fits : item.Fits) (rest : Bytes) :
    split (item.encode ++ rest) = (item :: (split rest).1, (split rest).2) := by
  have number : (UInt16.ofNat item.content.length).toNat = item.content.length :=
    UInt16.toNat_ofNat_of_lt' fits
  simp only [encode, vector16, List.append_assoc]
  rw [split_header, number, if_pos (by simp), List.drop_left, List.take_left]

theorem split_flatMap_append {items : List Tagged} (fits : ∀ item ∈ items, item.Fits)
    (rest : Bytes) :
    split (items.flatMap encode ++ rest) = (items ++ (split rest).1, (split rest).2) := by
  induction items with
  | nil => rfl
  | cons item items ih =>
    have fitsFirst := fits item (by simp)
    have fitsRest : ∀ item ∈ items, item.Fits :=
      fun item membership => fits item (by simp [membership])
    rw [List.flatMap_cons, List.append_assoc, split_encode_append fitsFirst, ih fitsRest,
      List.cons_append]

theorem split_flatMap {items : List Tagged} (fits : ∀ item ∈ items, item.Fits) :
    split (items.flatMap encode) = (items, []) := by
  have nothing : split [] = ([], []) := split_eq_of_short (by decide)
  have whole := split_flatMap_append fits []
  rwa [nothing, List.append_nil, List.append_nil] at whole

theorem Splits.split_eq {data tail : Bytes} {items : List Tagged}
    (splits : Splits data items tail) : split data = (items, tail) := by
  rw [splits.eq, split_flatMap_append splits.fits, split_of_stuck splits.stuck, List.append_nil]

/-- Every string of bytes is split, in one way. -/
theorem splits_split (data : Bytes) : Splits data (split data).1 (split data).2 := by
  induction data using split.induct with
  | case1 a b c d rest complete items tail divided ih =>
    have unfolded : split (a :: b :: c :: d :: rest) =
        (⟨be16 a b, rest.take (be16 c d).toNat⟩ :: (split (rest.drop (be16 c d).toNat)).1,
          (split (rest.drop (be16 c d).toNat)).2) := by
      rw [split, if_pos complete]
    have length : (rest.take (be16 c d).toNat).length = (be16 c d).toNat := by
      rw [List.length_take]
      omega
    rw [unfolded]
    refine ⟨?_, ?_, ih.stuck⟩
    · rw [List.flatMap_cons, List.append_assoc, ← ih.eq]
      simp [encode, vector16, length, ofUInt16_be16]
    · intro item membership
      rcases List.mem_cons.mp membership with rfl | later
      · have bound := (be16 c d).toNat_lt
        simpa [Fits, length] using bound
      · exact ih.fits item later
  | case2 a b c d rest cut =>
    have stuck : cutOff (a :: b :: c :: d :: rest) = some (be16 a b) := if_pos (by omega)
    rw [split_of_cutOff stuck]
    exact ⟨rfl, by simp, .inr (by simp [stuck])⟩
  | case3 data short =>
    have length : data.length < 4 := by
      by_contra long
      obtain ⟨tag, length, rest, rfl⟩ := exists_header (Nat.le_of_not_lt long)
      exact short _ _ _ _ rest rfl
    rw [split_eq_of_short length]
    exact ⟨rfl, by simp, .inl length⟩

end Tagged

end PqcUtils.Bytes

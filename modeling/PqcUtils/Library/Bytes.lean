import PqcUtils.Library.Outcome
import Mathlib.Algebra.Group.Nat.Defs
import Mathlib.Data.List.Basic

/-!
# Byte strings

Checked reads at an offset and big-endian integers. A reader that walks a buffer
by offset is related to the format it reads through `data.drop offset`: what is
left at the offset starts with the encoding of the next field.
-/

namespace PqcUtils

universe u

abbrev Bytes := List UInt8

namespace Bytes

variable {Error : Type u}

/-- `data[offset]`, which panics when the offset is out of range. -/
def index (data : Bytes) (offset : Nat) : Outcome Error UInt8 :=
  match data[offset]? with
  | some byte => .ok byte
  | none => .panic

/-- `&data[start..stop]`, which panics when the range is not inside the data. -/
def slice (data : Bytes) (start stop : Nat) : Outcome Error Bytes :=
  if start ≤ stop ∧ stop ≤ data.length then .ok ((data.drop start).take (stop - start)) else .panic

theorem index_of_drop {data : Bytes} {offset : Nat} {byte : UInt8} (rest : Bytes)
    (remaining : data.drop offset = byte :: rest) :
    index data offset = (.ok byte : Outcome Error UInt8) := by
  have found : data[offset]? = some byte := by
    rw [← List.head?_drop, remaining, List.head?_cons]
  simp [index, found]

theorem slice_to_end {data : Bytes} {start : Nat} (inside : start ≤ data.length) :
    slice data start data.length = (.ok (data.drop start) : Outcome Error Bytes) := by
  rw [slice, if_pos ⟨inside, Nat.le_refl _⟩, List.take_of_length_le (by simp)]

theorem slice_from_start {data : Bytes} {stop : Nat} (inside : stop ≤ data.length) :
    slice data 0 stop = (.ok (data.take stop) : Outcome Error Bytes) := by
  rw [slice, if_pos ⟨Nat.zero_le _, inside⟩, List.drop_zero, Nat.sub_zero]

theorem length_of_drop {data rest : Bytes} {offset : Nat} {field : Bytes}
    (remaining : data.drop offset = field ++ rest) (nonempty : field ++ rest ≠ []) :
    data.length = offset + field.length + rest.length := by
  have total := congrArg List.length remaining
  rw [List.length_drop, List.length_append] at total
  have positive := List.length_pos_iff.mpr nonempty
  rw [List.length_append] at positive
  omega

theorem drop_add_of_drop {data rest : Bytes} {offset : Nat} (field : Bytes)
    (remaining : data.drop offset = field ++ rest) :
    data.drop (offset + field.length) = rest := by
  rw [← List.drop_drop, remaining, List.drop_left]

/-! ## Big-endian integers -/

/-- `((high as u16) << 8) | low as u16`. -/
def be16 (high low : UInt8) : UInt16 := (high.toUInt16 <<< 8) ||| low.toUInt16

/-- `u32::from_be_bytes([a, b, c, d])`. -/
def be32 (a b c d : UInt8) : UInt32 :=
  (a.toUInt32 <<< 24) ||| (b.toUInt32 <<< 16) ||| (c.toUInt32 <<< 8) ||| d.toUInt32

def ofUInt16 (value : UInt16) : Bytes := [(value >>> 8).toUInt8, value.toUInt8]

def ofUInt32 (value : UInt32) : Bytes :=
  [(value >>> 24).toUInt8, (value >>> 16).toUInt8, (value >>> 8).toUInt8, value.toUInt8]

@[simp] theorem length_ofUInt16 (value : UInt16) : (ofUInt16 value).length = 2 := rfl

@[simp] theorem length_ofUInt32 (value : UInt32) : (ofUInt32 value).length = 4 := rfl

/-- The shifted bytes occupy disjoint bits, so the or is a sum. -/
theorem toNat_be16 (high low : UInt8) : (be16 high low).toNat = high.toNat * 256 + low.toNat := by
  have highBound := high.toNat_lt
  have lowBound := low.toNat_lt
  simp only [be16, UInt16.toNat_or, UInt16.toNat_shiftLeft, UInt8.toNat_toUInt16]
  rw [show (8 : UInt16).toNat % 16 = 8 from rfl,
    Nat.mod_eq_of_lt (by rw [Nat.shiftLeft_eq]; omega),
    ← Nat.shiftLeft_add_eq_or_of_lt (by omega), Nat.shiftLeft_eq]

theorem toNat_be32 (a b c d : UInt8) :
    (be32 a b c d).toNat = a.toNat * 2 ^ 24 + b.toNat * 2 ^ 16 + c.toNat * 2 ^ 8 + d.toNat := by
  have aBound := a.toNat_lt
  have bBound := b.toNat_lt
  have cBound := c.toNat_lt
  have dBound := d.toNat_lt
  simp only [be32, UInt32.toNat_or, UInt32.toNat_shiftLeft, UInt8.toNat_toUInt32]
  rw [show (24 : UInt32).toNat % 32 = 24 from rfl, show (16 : UInt32).toNat % 32 = 16 from rfl,
    show (8 : UInt32).toNat % 32 = 8 from rfl,
    Nat.mod_eq_of_lt (a := a.toNat <<< 24) (by rw [Nat.shiftLeft_eq]; omega),
    Nat.mod_eq_of_lt (a := b.toNat <<< 16) (by rw [Nat.shiftLeft_eq]; omega),
    Nat.mod_eq_of_lt (a := c.toNat <<< 8) (by rw [Nat.shiftLeft_eq]; omega),
    Nat.or_assoc, Nat.or_assoc, ← Nat.shiftLeft_add_eq_or_of_lt (i := 8) (by omega),
    ← Nat.shiftLeft_add_eq_or_of_lt (i := 16) (by rw [Nat.shiftLeft_eq]; omega),
    ← Nat.shiftLeft_add_eq_or_of_lt (i := 24) (by simp only [Nat.shiftLeft_eq]; omega)]
  simp only [Nat.shiftLeft_eq]
  omega

theorem be16_ofUInt16 (value : UInt16) :
    be16 (value >>> 8).toUInt8 value.toUInt8 = value := by
  have bound := value.toNat_lt
  apply UInt16.toNat_inj.mp
  rw [toNat_be16]
  simp [Nat.shiftRight_eq_div_pow]
  omega

theorem be32_ofUInt32 (value : UInt32) :
    be32 (value >>> 24).toUInt8 (value >>> 16).toUInt8 (value >>> 8).toUInt8 value.toUInt8 =
      value := by
  have bound := value.toNat_lt
  apply UInt32.toNat_inj.mp
  rw [toNat_be32]
  simp [Nat.shiftRight_eq_div_pow]
  omega

def index16 (data : Bytes) (offset : Nat) : Outcome Error UInt16 := do
  let high ← index data offset
  let low ← index data (offset + 1)
  pure (be16 high low)

theorem index16_of_drop {data rest : Bytes} {offset : Nat} {value : UInt16}
    (remaining : data.drop offset = ofUInt16 value ++ rest) :
    index16 data offset = (.ok value : Outcome Error UInt16) := by
  have second : data.drop (offset + 1) = value.toUInt8 :: rest :=
    drop_add_of_drop [(value >>> 8).toUInt8] remaining
  simp only [index16, index_of_drop _ remaining, index_of_drop _ second, Outcome.ok_bind,
    Outcome.pure_eq_ok, be16_ofUInt16]

/-! ## What a read says about the data -/

theorem drop_of_index {data : Bytes} {offset : Nat} {byte : UInt8}
    (read : index data offset = (.ok byte : Outcome Error UInt8)) :
    data.drop offset = byte :: data.drop (offset + 1) := by
  unfold index at read
  split at read
  · next found =>
    cases read
    obtain ⟨inside, rfl⟩ := List.getElem?_eq_some_iff.mp found
    exact List.drop_eq_getElem_cons inside
  · cases read

theorem ofUInt16_be16 (high low : UInt8) : ofUInt16 (be16 high low) = [high, low] := by
  have highBound := high.toNat_lt
  have lowBound := low.toNat_lt
  have value := toNat_be16 high low
  simp only [ofUInt16, List.cons.injEq, and_true]
  constructor <;> apply UInt8.toNat_inj.mp
  · simp [value, Nat.shiftRight_eq_div_pow]
    omega
  · simp [value]

theorem drop_of_index16 {data : Bytes} {offset : Nat} {value : UInt16}
    (read : index16 data offset = (.ok value : Outcome Error UInt16)) :
    data.drop offset = ofUInt16 value ++ data.drop (offset + 2) := by
  obtain ⟨high, readHigh, read⟩ := Outcome.bind_eq_ok_iff.mp read
  obtain ⟨low, readLow, read⟩ := Outcome.bind_eq_ok_iff.mp read
  cases read
  rw [drop_of_index readHigh, drop_of_index readLow, ofUInt16_be16]
  rfl

theorem exists_field (data : Bytes) (offset count : Nat) (inside : offset + count ≤ data.length) :
    ∃ field, field.length = count ∧ data.drop offset = field ++ data.drop (offset + count) := by
  refine ⟨(data.drop offset).take count, ?_, ?_⟩
  · rw [List.length_take, List.length_drop]
    omega
  · rw [← List.drop_drop, List.take_append_drop]

/-! ## Reads out of range -/

theorem index_eq_panic_iff {data : Bytes} {offset : Nat} :
    index data offset = (.panic : Outcome Error UInt8) ↔ data.length ≤ offset := by
  rw [← List.getElem?_eq_none_iff, index]
  cases data[offset]? <;> simp

variable (Error) in
theorem exists_index (data : Bytes) (offset : Nat) (inside : offset < data.length) :
    ∃ byte, index data offset = (.ok byte : Outcome Error UInt8) := by
  rw [index, List.getElem?_eq_getElem inside]
  exact ⟨_, rfl⟩

variable (Error) in
theorem exists_index16 (data : Bytes) (offset : Nat) (inside : offset + 2 ≤ data.length) :
    ∃ value, index16 data offset = (.ok value : Outcome Error UInt16) := by
  obtain ⟨high, readHigh⟩ := exists_index Error data offset (by omega)
  obtain ⟨low, readLow⟩ := exists_index Error data (offset + 1) (by omega)
  exact ⟨be16 high low, by rw [index16, readHigh, Outcome.ok_bind, readLow, Outcome.ok_bind]; rfl⟩

theorem exists_ofUInt16_append {data : Bytes} (long : 2 ≤ data.length) :
    ∃ value rest, data = ofUInt16 value ++ rest := by
  match data, long with
  | high :: low :: rest, _ => exact ⟨be16 high low, rest, by rw [ofUInt16_be16]; rfl⟩

theorem index16_eq_panic_iff {data : Bytes} {offset : Nat} :
    index16 data offset = (.panic : Outcome Error UInt16) ↔ data.length < offset + 2 := by
  constructor
  · intro panics
    by_contra long
    obtain ⟨value, read⟩ := exists_index16 Error data offset (by omega)
    rw [read] at panics
    cases panics
  · intro short
    by_cases outside : data.length ≤ offset
    · rw [index16, index_eq_panic_iff.mpr outside, Outcome.panic_bind]
    · obtain ⟨high, readHigh⟩ := exists_index Error data offset (by omega)
      have last : data.length ≤ offset + 1 := by omega
      rw [index16, readHigh, Outcome.ok_bind, index_eq_panic_iff.mpr last, Outcome.panic_bind]

/-! ## Vectors -/

/-- Bytes behind their number in one byte. -/
def vector8 (content : Bytes) : Bytes := .ofNat content.length :: content

def vector16 (content : Bytes) : Bytes := ofUInt16 (.ofNat content.length) ++ content

@[simp] theorem length_vector8 (content : Bytes) :
    (vector8 content).length = 1 + content.length := by
  simp [vector8, Nat.add_comm]

@[simp] theorem length_vector16 (content : Bytes) :
    (vector16 content).length = 2 + content.length := by
  simp [vector16]

theorem exists_vector8 {data : Bytes} {offset next : Nat} {count : UInt8}
    (read : index data offset = (.ok count : Outcome Error UInt8))
    (behind : next = offset + (1 + count.toNat)) (inside : next ≤ data.length) :
    ∃ content, content.length < 2 ^ 8 ∧
      data.drop offset = vector8 content ++ data.drop next := by
  obtain ⟨content, length_content, atContent⟩ :=
    exists_field data (offset + 1) count.toNat (by omega)
  refine ⟨content, ?_, ?_⟩
  · rw [length_content]
    exact count.toNat_lt
  · rw [drop_of_index read, atContent, vector8, length_content, UInt8.ofNat_toNat, behind,
      Nat.add_assoc, List.cons_append]

theorem exists_number_of_drop {data content rest : Bytes} {offset : Nat}
    (short : content.length < 2 ^ 8) (remaining : data.drop offset = vector8 content ++ rest) :
    ∃ count, index data offset = (.ok count : Outcome Error UInt8) ∧
      count.toNat = content.length ∧ data.drop (offset + 1 + content.length) = rest := by
  have behind := drop_add_of_drop _ remaining
  rw [length_vector8, ← Nat.add_assoc] at behind
  exact ⟨_, index_of_drop _ remaining, UInt8.toNat_ofNat_of_lt' short, behind⟩

/-! ## Initial parts -/

/-- Once an initial part covers a field, the field stands in it and the rest is an initial part. -/
theorem drop_of_isPrefix {data rest : Bytes} {offset : Nat} (field : Bytes)
    (initial : data.drop offset <+: field ++ rest) (covers : offset + field.length ≤ data.length) :
    data.drop offset = field ++ data.drop (offset + field.length) ∧
      data.drop (offset + field.length) <+: rest := by
  obtain ⟨missing, complete⟩ := initial
  have inside : field.length ≤ (data.drop offset).length := by
    rw [List.length_drop]
    omega
  have start : (data.drop offset).take field.length = field := by
    rw [← List.take_append_of_le_length inside, complete, List.take_left]
  have split : data.drop offset = field ++ data.drop (offset + field.length) := by
    rw [← List.drop_drop]
    conv_lhs => rw [← List.take_append_drop field.length (data.drop offset), start]
  refine ⟨split, missing, ?_⟩
  rw [split, List.append_assoc] at complete
  exact List.append_cancel_left complete

/-- Once the number of a vector is covered it is read, whether the content is all there or not. -/
theorem exists_number_of_vector8 {data content rest : Bytes} {offset : Nat}
    (short : content.length < 2 ^ 8) (initial : data.drop offset <+: vector8 content ++ rest)
    (covers : offset + 1 ≤ data.length) :
    ∃ count, index data offset = (.ok count : Outcome Error UInt8) ∧
      count.toNat = content.length ∧
      (offset + 1 + content.length ≤ data.length →
        data.drop (offset + 1 + content.length) <+: rest) := by
  obtain ⟨number, atContent⟩ : data.drop offset = [_] ++ data.drop (offset + 1) ∧
      data.drop (offset + 1) <+: content ++ rest := drop_of_isPrefix [_] initial covers
  refine ⟨_, index_of_drop _ number, UInt8.toNat_ofNat_of_lt' short, fun complete => ?_⟩
  exact (drop_of_isPrefix content atContent complete).2

theorem exists_number_of_vector16 {data content rest : Bytes} {offset : Nat}
    (short : content.length < 2 ^ 16) (initial : data.drop offset <+: vector16 content ++ rest)
    (covers : offset + 2 ≤ data.length) :
    ∃ count, index16 data offset = (.ok count : Outcome Error UInt16) ∧
      count.toNat = content.length ∧
      (offset + 2 + content.length ≤ data.length →
        data.drop (offset + 2) = content ++ data.drop (offset + 2 + content.length) ∧
          data.drop (offset + 2 + content.length) <+: rest) := by
  rw [vector16, List.append_assoc] at initial
  obtain ⟨number, atContent⟩ := drop_of_isPrefix _ initial covers
  exact ⟨_, index16_of_drop number, UInt16.toNat_ofNat_of_lt' short,
    drop_of_isPrefix content atContent⟩

end Bytes

end PqcUtils

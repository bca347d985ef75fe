import PqcUtils.Library.Bytes

/-!
# Readers that more data does not change

A reader is stable when the value it has read stays the same however the data
goes on. Reads at an offset are stable, a guard against data that is too short is
stable, and stable readers can be put in sequence.
-/

namespace PqcUtils.Bytes

universe u v

variable {Error : Type u} {Value Next : Type v}

/-- More data never takes a value back. -/
def Stable (read : Bytes → Outcome Error Value) : Prop :=
  ∀ data more value, read data = .ok value → read (data ++ more) = .ok value

namespace Stable

theorem const (outcome : Outcome Error Value) : Stable fun _ => outcome :=
  fun _ _ _ read => read

theorem bind {read : Bytes → Outcome Error Value} {next : Bytes → Value → Outcome Error Next}
    (first : Stable read) (later : ∀ value, Stable fun data => next data value) :
    Stable fun data => read data >>= next data := by
  intro data more result outcome
  obtain ⟨value, readFirst, readLater⟩ := Outcome.bind_eq_ok_iff.mp outcome
  exact Outcome.bind_eq_ok_iff.mpr
    ⟨value, first data more value readFirst, later value data more result readLater⟩

theorem index (offset : Nat) : Stable fun data => (data.index offset : Outcome Error UInt8) := by
  intro data more byte read
  have remaining := drop_of_index read
  have inside : offset ≤ data.length := by
    by_contra outside
    rw [List.drop_eq_nil_of_le (Nat.le_of_not_le outside)] at remaining
    cases remaining
  apply index_of_drop (data.drop (offset + 1) ++ more)
  rw [List.drop_append_of_le_length inside, remaining, List.cons_append]

theorem index16 (offset : Nat) :
    Stable fun data => (data.index16 offset : Outcome Error UInt16) :=
  bind (index offset) fun _ => bind (index (offset + 1)) fun _ => const _

theorem rejectIf_lt (bound : Nat) (error : Error) :
    Stable fun data => Outcome.rejectIf (data.length < bound) error := by
  intro data more value passed
  rw [Outcome.rejectIf_eq_ok_iff] at passed ⊢
  rw [List.length_append]
  omega

theorem rejectIf_le (bound : Nat) (error : Error) :
    Stable fun data => Outcome.rejectIf (data.length ≤ bound) error := by
  intro data more value passed
  rw [Outcome.rejectIf_eq_ok_iff] at passed ⊢
  rw [List.length_append]
  omega

end Stable

end PqcUtils.Bytes

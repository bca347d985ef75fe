import PqcUtils.Library.Outcome
import Mathlib.Algebra.BigOperators.Group.List.Basic
import Mathlib.Algebra.GroupWithZero.Nat

/-!
# Sums with overflow checks

In a build with overflow checks a sum of sixteen-bit numbers that does not fit
is a panic. A chain of such sums can be read as one number that is checked once,
at the end: the partial sums only grow.
-/

namespace PqcUtils.Checked

universe u

variable {Error : Type u}

def ofNat16 (n : Nat) : Outcome Error UInt16 := if n < 2 ^ 16 then .ok (.ofNat n) else .panic

def add16 (a b : UInt16) : Outcome Error UInt16 :=
  if a.toNat + b.toNat < 2 ^ 16 then .ok (a + b) else .panic

theorem ofNat16_eq_ok_iff {n : Nat} {value : UInt16} :
    ofNat16 n = (.ok value : Outcome Error UInt16) ↔ n = value.toNat := by
  unfold ofNat16
  split
  · next fits =>
    rw [Outcome.ok.injEq, ← UInt16.toNat_inj, UInt16.toNat_ofNat_of_lt' fits]
  · next tooLarge =>
    have bound := value.toNat_lt
    simp only [reduceCtorEq, false_iff]
    omega

theorem ofNat16_of_lt {n : Nat} (fits : n < 2 ^ 16) :
    ofNat16 n = (.ok (.ofNat n) : Outcome Error UInt16) := if_pos fits

theorem ofNat16_eq_panic_iff {n : Nat} :
    ofNat16 n = (.panic : Outcome Error UInt16) ↔ 2 ^ 16 ≤ n := by
  unfold ofNat16
  split <;> simp <;> omega

theorem add16_eq_ofNat16 (a b : UInt16) :
    add16 a b = (ofNat16 (a.toNat + b.toNat) : Outcome Error UInt16) := by
  rw [add16, ofNat16, UInt16.ofNat_add, UInt16.ofNat_toNat, UInt16.ofNat_toNat]

theorem add16_ofNat {n : Nat} (fits : n < 2 ^ 16) (b : UInt16) :
    add16 (.ofNat n) b = (ofNat16 (n + b.toNat) : Outcome Error UInt16) := by
  rw [add16_eq_ofNat16, UInt16.toNat_ofNat_of_lt' fits]

theorem eq_add_of_add16 {a b sum : UInt16} (added : add16 a b = (.ok sum : Outcome Error UInt16)) :
    sum = a + b := by
  unfold add16 at added
  split at added
  · exact (Outcome.ok.inj added).symm
  · cases added

/-- A sum that has overflowed does not come back. -/
theorem ofNat16_bind_add16 (n : Nat) (b : UInt16) :
    (ofNat16 n >>= fun a => add16 a b) = (ofNat16 (n + b.toNat) : Outcome Error UInt16) := by
  by_cases fits : n < 2 ^ 16
  · rw [ofNat16_of_lt fits, Outcome.ok_bind, add16_ofNat fits]
  · have tooLarge : 2 ^ 16 ≤ n + b.toNat := by omega
    rw [ofNat16_eq_panic_iff.mpr (Nat.le_of_not_lt fits), ofNat16_eq_panic_iff.mpr tooLarge,
      Outcome.panic_bind]

theorem foldlM_eq_ofNat16 {Item : Type*} {step : UInt16 → Item → Outcome Error UInt16}
    {size : Item → Nat} (adds : ∀ count item, step count item = ofNat16 (count.toNat + size item))
    (count : UInt16) (items : List Item) :
    items.foldlM step count = ofNat16 (count.toNat + (items.map size).sum) := by
  induction items generalizing count with
  | nil =>
    rw [List.foldlM_nil, Outcome.pure_eq_ok, eq_comm, ofNat16_eq_ok_iff]
    simp
  | cons item items ih =>
    rw [List.foldlM_cons, adds, List.map_cons, List.sum_cons, ← Nat.add_assoc]
    by_cases fits : count.toNat + size item < 2 ^ 16
    · rw [ofNat16_of_lt fits, Outcome.ok_bind, ih, UInt16.toNat_ofNat_of_lt' fits]
    · have tooLarge : 2 ^ 16 ≤ count.toNat + size item + (items.map size).sum := by omega
      rw [ofNat16_eq_panic_iff.mpr (Nat.le_of_not_lt fits), ofNat16_eq_panic_iff.mpr tooLarge,
        Outcome.panic_bind]

/-- A loop that completes does what the loop without checks does. -/
theorem foldl_eq_of_foldlM {Item : Type*} {step : UInt16 → Item → Outcome Error UInt16}
    (unchecked : UInt16 → Item → UInt16)
    (agrees : ∀ count item next, step count item = .ok next → next = unchecked count item)
    {items : List Item} {count last : UInt16} (completes : items.foldlM step count = .ok last) :
    last = items.foldl unchecked count := by
  induction items generalizing count with
  | nil =>
    cases completes
    rfl
  | cons item items ih =>
    obtain ⟨next, stepped, rest⟩ := Outcome.bind_eq_ok_iff.mp completes
    rw [List.foldl_cons, ← agrees count item next stepped]
    exact ih rest

end PqcUtils.Checked

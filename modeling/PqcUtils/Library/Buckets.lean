import PqcUtils.Library.HashMap
import PqcUtils.Library.Runs

/-!
# Sets under keys

A loop that adds values to the sets of a map sorts them by key: after it, the set
under a key holds what was added under this key, and what it held before.
-/

namespace PqcUtils.HashMap

universe u v w x

variable {Key : Type u} {Value : Type v} [DecidableEq Key]

def members (map : HashMap Key (Finset Value)) (key : Key) : Finset Value :=
  (map.lookup key).getD ∅

@[simp] theorem members_empty (key : Key) : (∅ : HashMap Key (Finset Value)).members key = ∅ := by
  simp [members]

variable [DecidableEq Value]

theorem mem_members_update {map : HashMap Key (Finset Value)} {key other : Key}
    {values : Finset Value} {value : Value} :
    value ∈ (map.update key ∅ fun set => set ∪ values).members other ↔
      value ∈ map.members other ∨ key = other ∧ value ∈ values := by
  by_cases same : other = key
  · subst same
    simp [members]
  · rw [members, lookup_update_of_ne _ _ _ same]
    simp [members, Ne.symm same]

/-- A step that adds at most one row of values, under one key. -/
def Adds {State : Type w} (part : State → HashMap Key (Finset Value))
    (added : Option (Key × Finset Value)) (before after : State) : Prop :=
  part after = match added with
    | none => part before
    | some (key, values) => (part before).update key ∅ fun set => set ∪ values

theorem members_of_run {State : Type w} {Input : Type x} {step : State → Input → Option State}
    {part : State → HashMap Key (Finset Value)} {added : Input → Option (Key × Finset Value)}
    (effect : ∀ before input after, step before input = some after →
      Adds part (added input) before after)
    {inputs : List Input} {first last : State} (result : Runs.run step first inputs = some last)
    (key : Key) (value : Value) :
    value ∈ (part last).members key ↔ value ∈ (part first).members key ∨
      ∃ input ∈ inputs, ∃ values, added input = some (key, values) ∧ value ∈ values := by
  apply Runs.gathered_of_run (fun state => value ∈ (part state).members key)
    (fun input => ∃ values, added input = some (key, values) ∧ value ∈ values) _ result
  intro before input after stepped
  rw [effect before input after stepped]
  cases added input with
  | none => simp
  | some row =>
    obtain ⟨key', values⟩ := row
    rw [mem_members_update]
    simp [and_assoc]

theorem members_of_visit {State : Type w} {Origin Item : Type x} [DecidableEq Origin]
    {step : State → Origin × Item → Option State} {part : State → HashMap Key (Finset Value)}
    {added : Origin × Item → Option (Key × Finset Value)}
    (effect : ∀ before entry after, step before entry = some after →
      Adds part (added entry) before after)
    {order : List (Origin × Item)} {map : HashMap Origin Item} (visits : Enumerates order map)
    {first last : State} (result : Runs.run step first order = some last) (fresh : part first = ∅)
    (key : Key) (value : Value) :
    value ∈ (part last).members key ↔ ∃ origin item, map.lookup origin = some item ∧
      ∃ values, added (origin, item) = some (key, values) ∧ value ∈ values := by
  rw [members_of_run effect result, fresh, visits.exists_iff fun entry =>
    ∃ values, added entry = some (key, values) ∧ value ∈ values]
  simp

end PqcUtils.HashMap

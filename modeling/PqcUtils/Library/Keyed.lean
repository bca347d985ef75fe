import PqcUtils.Library.HashMap

/-!
# A table of machines

One machine for each key, started by the first input with the key. Each input
goes to the machine with its key alone, so what a key gets out of an interleaved
run is what it gets out of a run on its own inputs.
-/

namespace PqcUtils

universe u v w x

/-- A machine that answers each input. Its state is made from the first one. -/
structure Machine (State : Type u) (Input : Type v) (Output : Type w) where
  start : Input → State
  step : State → Input → Output × State

namespace Machine

variable {Key : Type x} {State : Type u} {Input : Type v} {Output : Type w}
variable (machine : Machine State Input Output)

def next (state : Option State) (input : Input) : State :=
  (machine.step (state.getD (machine.start input)) input).2

def alone (state : Option State) (inputs : List Input) : Option State :=
  inputs.foldl (fun state input => some (machine.next state input)) state

theorem alone_append (state : Option State) (inputs more : List Input) :
    machine.alone state (inputs ++ more) = machine.alone (machine.alone state inputs) more :=
  List.foldl_append

theorem alone_ne_none {inputs : List Input} (nonempty : inputs ≠ []) (state : Option State) :
    machine.alone state inputs ≠ none := by
  induction inputs using List.reverseRecOn with
  | nil => exact absurd rfl nonempty
  | append_singleton earlier last => simp [alone]

/-- A relation between the inputs so far and the state that the first input establishes and
every later one keeps. -/
theorem history_of_alone (History : List Input → State → Prop)
    (preserved : ∀ past state input, History past state →
      History (past ++ [input]) (machine.step state input).2)
    {inputs : List Input}
    (starts : ∀ first ∈ inputs.head?, History [first] (machine.step (machine.start first) first).2)
    {state : State} (reached : machine.alone none inputs = some state) : History inputs state := by
  induction inputs using List.reverseRecOn generalizing state with
  | nil => cases reached
  | append_singleton past input ih =>
    rw [alone_append] at reached
    cases before : machine.alone none past with
    | none =>
      obtain rfl : past = [] := by
        by_contra nonempty
        exact machine.alone_ne_none nonempty none before
      cases reached
      exact starts input rfl
    | some state' =>
      have nonempty : past ≠ [] := by
        rintro rfl
        cases before
      rw [before] at reached
      cases reached
      refine preserved past state' input (ih ?_ before)
      intro first atHead
      exact starts first (by rw [List.head?_append_of_ne_nil _ nonempty]; exact atHead)

variable [DecidableEq Key]

def feed (table : HashMap Key State) (entry : Key × Input) : Output × HashMap Key State :=
  let answered := machine.step ((table.lookup entry.1).getD (machine.start entry.2)) entry.2
  (answered.1, Finmap.insert entry.1 answered.2 table)

def after (table : HashMap Key State) (entries : List (Key × Input)) : HashMap Key State :=
  entries.foldl (fun table entry => (machine.feed table entry).2) table

def outputs : HashMap Key State → List (Key × Input) → List (Key × Output)
  | _, [] => []
  | table, entry :: entries =>
    (entry.1, (machine.feed table entry).1) :: outputs (machine.feed table entry).2 entries

def inputsFor (key : Key) (entries : List (Key × Input)) : List Input :=
  (entries.filter fun entry => entry.1 = key).map Prod.snd

theorem inputsFor_cons (key : Key) (entry : Key × Input) (entries : List (Key × Input)) :
    inputsFor key (entry :: entries) =
      if entry.1 = key then entry.2 :: inputsFor key entries else inputsFor key entries := by
  by_cases same : entry.1 = key <;> simp [inputsFor, same]

theorem inputsFor_take_isPrefix (key : Key) (entries : List (Key × Input)) (count : Nat) :
    inputsFor key (entries.take count) <+: inputsFor key entries :=
  ((entries.take_prefix count).filter _).map _

theorem lookup_feed (table : HashMap Key State) (entry : Key × Input) (key : Key) :
    (machine.feed table entry).2.lookup key =
      if entry.1 = key then some (machine.next (table.lookup key) entry.2)
      else table.lookup key := by
  rw [feed, HashMap.lookup_insert_eq]
  by_cases same : entry.1 = key
  · rw [if_pos same.symm, if_pos same, next, same]
  · rw [if_neg (Ne.symm same), if_neg same]

/-- The state for a key is made by the inputs with the key. -/
theorem lookup_after (table : HashMap Key State) (entries : List (Key × Input)) (key : Key) :
    (machine.after table entries).lookup key =
      machine.alone (table.lookup key) (inputsFor key entries) := by
  induction entries generalizing table with
  | nil => rfl
  | cons entry entries ih =>
    have later := ih (machine.feed table entry).2
    rw [lookup_feed] at later
    rw [inputsFor_cons]
    by_cases same : entry.1 = key
    · rw [if_pos same] at later ⊢
      exact later
    · rw [if_neg same] at later ⊢
      exact later

theorem getElem?_outputs (table : HashMap Key State) {entries : List (Key × Input)} {turn : Nat}
    {entry : Key × Input} (atTurn : entries[turn]? = some entry) :
    (machine.outputs table entries)[turn]? =
      some (entry.1, (machine.feed (machine.after table (entries.take turn)) entry).1) := by
  induction entries generalizing table turn with
  | nil => simp at atTurn
  | cons first entries ih =>
    cases turn with
    | zero =>
      obtain rfl : first = entry := by simpa using atTurn
      rfl
    | succ turn => exact ih _ (by simpa using atTurn)

/-- The answers with a key depend on the machine of the key and its inputs. -/
theorem filter_outputs (key : Key) {table table' : HashMap Key State}
    (same : table.lookup key = table'.lookup key) (entries : List (Key × Input)) :
    (machine.outputs table entries).filter (fun entry => entry.1 = key) =
      machine.outputs table' (entries.filter fun entry => entry.1 = key) := by
  induction entries generalizing table table' with
  | nil => rfl
  | cons entry entries ih =>
    by_cases ours : entry.1 = key
    · have answer : (machine.feed table entry).1 = (machine.feed table' entry).1 := by
        rw [feed, feed, ours, same]
      have sameAfter : (machine.feed table entry).2.lookup key =
          (machine.feed table' entry).2.lookup key := by
        rw [lookup_feed, lookup_feed, same]
      simp only [outputs, ours, decide_true, List.filter_cons_of_pos, ih sameAfter, answer]
    · have untouched : (machine.feed table entry).2.lookup key = table'.lookup key := by
        rw [lookup_feed, if_neg ours, same]
      simp only [outputs, ours, decide_false, Bool.false_eq_true, not_false_eq_true,
        List.filter_cons_of_neg, ih untouched]

end Machine

end PqcUtils

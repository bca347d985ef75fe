import PqcUtils.Library.Runs
import Mathlib.Data.List.Perm.Basic
import Mathlib.Data.Option.Basic

/-!
# Steps that commute

Where inputs come from several sources, only the order within each source is given.
If inputs of different sources commute, a run is determined by what each of them
delivers. If all inputs commute, no order matters at all.
-/

namespace PqcUtils.Runs

universe u v w

variable {State : Type u} {Input : Type v} {step : State → Input → Option State}

/-- In either order the two inputs lead to the same state, or to none. -/
def Commutes (step : State → Input → Option State) (first second : Input) : Prop :=
  ∀ state, ((step state first).bind fun next => step next second) =
    (step state second).bind fun next => step next first

/-- An input may move in front of all that it commutes with. -/
theorem run_move {earlier : List Input} {input : Input}
    (commutes : ∀ other ∈ earlier, Commutes step other input) (later : List Input)
    (state : State) :
    run step state (earlier ++ input :: later) = run step state (input :: (earlier ++ later)) := by
  induction earlier generalizing state with
  | nil => rfl
  | cons first earlier ih =>
    obtain ⟨here, others⟩ := List.forall_mem_cons.mp commutes
    calc run step state (first :: earlier ++ input :: later)
        = (step state first).bind fun next => run step next (input :: (earlier ++ later)) := by
          simp only [List.cons_append, run_cons, ih others]
      _ = ((step state first).bind fun next => step next input).bind
            fun next => run step next (earlier ++ later) := by
          simp only [run_cons, Option.bind_assoc]
      _ = ((step state input).bind fun next => step next first).bind
            fun next => run step next (earlier ++ later) := by rw [here state]
      _ = run step state (input :: (first :: earlier ++ later)) := by
          simp only [List.cons_append, run_cons, Option.bind_assoc]

theorem run_append_comm {inputs others : List Input}
    (commutes : ∀ input ∈ inputs, ∀ other ∈ others, Commutes step input other) (state : State) :
    run step state (inputs ++ others) = run step state (others ++ inputs) := by
  induction others generalizing state with
  | nil => simp
  | cons first others ih =>
    have here : ∀ input ∈ inputs, Commutes step input first :=
      fun input membership => commutes input membership first (by simp)
    have rest : ∀ input ∈ inputs, ∀ other ∈ others, Commutes step input other :=
      fun input membership other later => commutes input membership other (by simp [later])
    rw [run_move here]
    simp only [List.cons_append, run_cons, ih rest]

theorem run_of_perm {inputs inputs' : List Input} (perm : inputs.Perm inputs')
    (commutes : ∀ first ∈ inputs, ∀ second ∈ inputs, Commutes step first second)
    (state : State) : run step state inputs = run step state inputs' := by
  induction inputs generalizing inputs' state with
  | nil => rw [List.nil_perm.mp perm]
  | cons first inputs ih =>
    obtain ⟨earlier, later, rfl⟩ := List.append_of_mem (perm.mem_iff.mp List.mem_cons_self)
    have rest : inputs.Perm (earlier ++ later) :=
      (List.perm_cons first).mp (perm.trans List.perm_middle)
    have here : ∀ other ∈ earlier, Commutes step other first := by
      intro other membership
      refine commutes other ?_ first (by simp)
      exact List.mem_cons_of_mem _ (rest.mem_iff.mpr (List.mem_append_left _ membership))
    have inner : ∀ first ∈ inputs, ∀ second ∈ inputs, Commutes step first second :=
      fun first among second among' => commutes first (by simp [among]) second (by simp [among'])
    rw [run_move here, run_cons, run_cons]
    simp only [ih rest inner]

theorem commutes_of_idle {idle : Input} (nothing : ∀ state, step state idle = some state)
    (other : Input) : Commutes step idle other := by
  intro state
  rw [nothing, Option.bind_some]
  cases stepped : step state other with
  | none => rfl
  | some next => rw [Option.bind_some, nothing]

theorem run_of_idle {inputs : List Input}
    (idle : ∀ input ∈ inputs, ∀ state, step state input = some state) (state : State) :
    run step state inputs = some state := by
  induction inputs with
  | nil => rfl
  | cons input inputs ih =>
    obtain ⟨here, others⟩ := List.forall_mem_cons.mp idle
    rw [run_cons, here, Option.bind_some, ih others]

section Sources

variable {Source : Type w} [DecidableEq Source] {source : Input → Option Source}

/-- Every source delivers the same inputs in the same order. -/
def SameDeliveries (source : Input → Option Source) (inputs inputs' : List Input) : Prop :=
  ∀ origin, (inputs.filter fun input => source input = some origin) =
    inputs'.filter fun input => source input = some origin

/-- One source may deliver everything in front of all others. -/
theorem sameDeliveries_partition (source : Input → Option Source) (inputs : List Input)
    (first : Source) :
    SameDeliveries source inputs ((inputs.filter fun input => source input = some first) ++
      inputs.filter fun input => source input ≠ some first) := by
  intro origin
  rw [List.filter_append, List.filter_filter, List.filter_filter]
  by_cases same : origin = first
  · subst same
    simp
  · have apart (input : Input) (here : source input = some origin) : source input ≠ some first :=
      fun there => same (Option.some.inj (here.symm.trans there))
    have nothing : (inputs.filter fun input =>
        decide (source input = some origin) && decide (source input = some first)) = [] := by
      rw [List.filter_eq_nil_iff]
      intro input _
      simpa using apart input
    rw [nothing, List.nil_append]
    apply List.filter_congr
    intro input _
    simpa using apart input

theorem SameDeliveries.exists_split {input : Input} {inputs inputs' : List Input} {origin : Source}
    (same : SameDeliveries source (input :: inputs) inputs') (from_ : source input = some origin) :
    ∃ earlier later, inputs' = earlier ++ input :: later ∧
      ∀ other ∈ earlier, source other ≠ some origin := by
  have found := same origin
  rw [List.filter_cons_of_pos (by simpa using from_)] at found
  obtain ⟨earlier, later, rfl, others, -, -⟩ := List.filter_eq_cons_iff.mp found.symm
  exact ⟨earlier, later, rfl, fun other membership => by simpa using others other membership⟩

theorem SameDeliveries.tail {input : Input} {inputs earlier later : List Input} {origin : Source}
    (same : SameDeliveries source (input :: inputs) (earlier ++ input :: later))
    (from_ : source input = some origin) (others : ∀ other ∈ earlier, source other ≠ some origin) :
    SameDeliveries source inputs (earlier ++ later) := by
  intro origin'
  have delivered := same origin'
  by_cases here : source input = some origin'
  · obtain rfl : origin = origin' := Option.some.inj (from_.symm.trans here)
    have none : (earlier.filter fun other => source other = some origin) = [] := by
      simpa [List.filter_eq_nil_iff] using others
    simpa [List.filter_append, here, none] using delivered
  · simpa [List.filter_append, here] using delivered

/-- What each source delivers determines the run. -/
theorem run_of_sameDeliveries
    (idle : ∀ input, source input = none → ∀ state, step state input = some state)
    (commutes : ∀ first second origin origin', source first = some origin →
      source second = some origin' → origin ≠ origin' → Commutes step first second)
    {inputs inputs' : List Input} (same : SameDeliveries source inputs inputs') (state : State) :
    run step state inputs = run step state inputs' := by
  induction inputs generalizing inputs' state with
  | nil =>
    rw [run_nil, run_of_idle]
    intro input membership
    cases from_ : source input with
    | none => exact idle input from_
    | some origin =>
      have delivered : input ∈ inputs'.filter fun input => source input = some origin := by
        simp [membership, from_]
      rw [← same origin] at delivered
      cases delivered
  | cons input inputs ih =>
    cases from_ : source input with
    | none =>
      have rest : SameDeliveries source inputs inputs' := fun origin => by
        simpa [from_] using same origin
      rw [run_cons, idle input from_, Option.bind_some, ih rest]
    | some origin =>
      obtain ⟨earlier, later, rfl, others⟩ := same.exists_split from_
      have here : ∀ other ∈ earlier, Commutes step other input := by
        intro other membership
        cases fromOther : source other with
        | none => exact commutes_of_idle (idle other fromOther) input
        | some origin' =>
          refine commutes other input origin' origin fromOther from_ fun equal => ?_
          exact others other membership (equal ▸ fromOther)
      rw [run_move here, run_cons, run_cons]
      simp only [ih (same.tail from_ others)]

end Sources

end PqcUtils.Runs

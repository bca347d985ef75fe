import Mathlib.Data.List.Basic

/-!
# Runs

A machine steps by a partial function of its state and an input. The inputs may
be data, or the choices of a scheduler; the step is undefined where the machine
aborts, or where the choice is not possible. `history_of_run` carries a relation
between the inputs consumed and the state through a run.
-/

namespace PqcUtils.Runs

universe u v w

variable {State : Type u} {Input : Type v} {step : State → Input → Option State}

/-- Feed the inputs in order. The result is `none` if a step on the way is undefined. -/
def run (step : State → Input → Option State) (first : State) (inputs : List Input) :
    Option State := inputs.foldlM step first

@[simp] theorem run_nil (first : State) : run step first [] = some first := rfl

@[simp] theorem run_cons (first : State) (input : Input) (inputs : List Input) :
    run step first (input :: inputs) = (step first input).bind fun next => run step next inputs :=
  rfl

theorem run_append (first : State) (inputs more : List Input) :
    run step first (inputs ++ more) =
      (run step first inputs).bind fun next => run step next more := by
  simp [run, List.foldlM_append]

/-- A relation between the inputs consumed so far and the state, kept by every step. -/
theorem history_of_run (History : List Input → State → Prop)
    (preserved : ∀ past before input after, History past before → step before input = some after →
      History (past ++ [input]) after)
    (past : List Input) {inputs : List Input} {first last : State} (holds : History past first)
    (result : run step first inputs = some last) : History (past ++ inputs) last := by
  induction inputs generalizing past first with
  | nil =>
    cases result
    simpa using holds
  | cons input inputs ih =>
    obtain ⟨next, stepped, rest⟩ := Option.bind_eq_some_iff.mp result
    simpa using ih _ (preserved past first input next holds stepped) rest

theorem invariant_of_run (Invariant : State → Prop)
    (preserved : ∀ before input after, Invariant before → step before input = some after →
      Invariant after)
    {inputs : List Input} {first last : State} (holds : Invariant first)
    (result : run step first inputs = some last) : Invariant last :=
  history_of_run (fun _ state => Invariant state)
    (fun _ before input after => preserved before input after) [] holds result

theorem exists_run (Invariant : State → Prop)
    (total : ∀ before input, Invariant before →
      ∃ after, step before input = some after ∧ Invariant after)
    (inputs : List Input) {first : State} (holds : Invariant first) :
    ∃ last, run step first inputs = some last := by
  induction inputs generalizing first with
  | nil => exact ⟨first, rfl⟩
  | cons input inputs ih =>
    obtain ⟨next, stepped, nextHolds⟩ := total first input holds
    obtain ⟨last, result⟩ := ih nextHolds
    exact ⟨last, by simp [stepped, result]⟩

theorem exists_run_of_mem {inputs : List Input}
    (total : ∀ input ∈ inputs, ∀ before, ∃ after, step before input = some after)
    (first : State) : ∃ last, run step first inputs = some last := by
  induction inputs generalizing first with
  | nil => exact ⟨first, rfl⟩
  | cons input inputs ih =>
    obtain ⟨next, stepped⟩ := total input (by simp) first
    obtain ⟨last, result⟩ := ih (fun input later => total input (by simp [later])) next
    exact ⟨last, by simp [stepped, result]⟩

/-- What a run does to the part of the state that a projection keeps. -/
theorem run_project {Part : Type w} {partStep : Part → Input → Option Part} (project : State → Part)
    (projects : ∀ state input, (step state input).map project = partStep (project state) input)
    (inputs : List Input) (state : State) :
    (run step state inputs).map project = run partStep (project state) inputs := by
  induction inputs generalizing state with
  | nil => rfl
  | cons input inputs ih =>
    rw [run_cons, run_cons, ← projects, Option.map_bind, Option.bind_map]
    exact congrArg (Option.bind (step state input)) (funext ih)

/-- A machine whose steps another one takes as well, on the states that stand for its own. -/
theorem run_embed {Part : Type w} {partStep : Part → Input → Option Part} (embed : Part → State)
    (embeds : ∀ part input next, partStep part input = some next →
      step (embed part) input = some (embed next))
    {inputs : List Input} {part last : Part} (result : run partStep part inputs = some last) :
    run step (embed part) inputs = some (embed last) := by
  induction inputs generalizing part with
  | nil =>
    cases result
    rfl
  | cons input inputs ih =>
    obtain ⟨next, stepped, result⟩ := Option.bind_eq_some_iff.mp result
    rw [run_cons, embeds part input next stepped, Option.bind_some]
    exact ih result

/-! ## What is gathered -/

/-- What holds after a run held before it, or some input has added it. -/
theorem gathered_of_run (Holds : State → Prop) (Adds : Input → Prop)
    (effect : ∀ before input after, step before input = some after →
      (Holds after ↔ Holds before ∨ Adds input))
    {inputs : List Input} {first last : State} (result : run step first inputs = some last) :
    Holds last ↔ Holds first ∨ ∃ input ∈ inputs, Adds input := by
  apply history_of_run (fun past state => Holds state ↔ Holds first ∨ ∃ input ∈ past, Adds input)
    _ [] (by simp) result
  intro past before input after gathered stepped
  rw [effect before input after stepped, gathered]
  simp [or_and_right, exists_or, or_assoc]

theorem counted_of_run (count : State → Nat) (counts : Input → Bool)
    (effect : ∀ before input after, step before input = some after →
      count after = count before + if counts input then 1 else 0)
    {inputs : List Input} {first last : State} (result : run step first inputs = some last) :
    count last = count first + inputs.countP counts := by
  apply history_of_run (fun past state => count state = count first + past.countP counts)
    _ [] (by simp) result
  intro past before input after counted stepped
  rw [effect before input after stepped, counted]
  simp [List.countP_cons, Nat.add_assoc]

/-- A cell that inputs write to holds what was written last, or what it held before. -/
theorem overwritten_of_run {Value : Type w} (cell : State → Option Value)
    (write : Input → Option Value) {inputs : List Input}
    (effect : ∀ input ∈ inputs, ∀ before after, step before input = some after →
      cell after = (write input).or (cell before))
    {first last : State} (result : run step first inputs = some last) :
    cell last = (inputs.reverse.findSome? write).or (cell first) := by
  induction inputs generalizing first with
  | nil =>
    cases result
    rfl
  | cons input inputs ih =>
    rw [run_cons, Option.bind_eq_some_iff] at result
    obtain ⟨next, stepped, result⟩ := result
    have later := ih (fun other among => effect other (List.mem_cons_of_mem _ among)) result
    have now := effect input List.mem_cons_self first next stepped
    rw [later, now, List.reverse_cons, List.findSome?_append, List.findSome?_singleton,
      Option.or_assoc]

/-! ## How many steps are left -/

/-- A measure that every step lowers by one counts the steps that are left. -/
theorem measure_of_run (Invariant : State → Prop)
    (preserved : ∀ before input after, Invariant before → step before input = some after →
      Invariant after) (measure : State → Nat)
    (lowers : ∀ before input after, Invariant before → step before input = some after →
      measure before = measure after + 1)
    {inputs : List Input} {first last : State} (holds : Invariant first)
    (result : run step first inputs = some last) :
    measure first = inputs.length + measure last := by
  refine (history_of_run
    (fun past state => Invariant state ∧ measure first = past.length + measure state) ?_ []
    ⟨holds, by simp⟩ result).2
  rintro past before input after ⟨held, counted⟩ stepped
  refine ⟨preserved before input after held stepped, ?_⟩
  rw [counted, lowers before input after held stepped, List.length_append, List.length_singleton]
  omega

/-- If a step is possible as long as some are left, every run can be completed. -/
theorem exists_completion (Invariant : State → Prop)
    (preserved : ∀ before input after, Invariant before → step before input = some after →
      Invariant after) (measure : State → Nat)
    (lowers : ∀ before input after, Invariant before → step before input = some after →
      measure before = measure after + 1)
    (progress : ∀ state, Invariant state → 0 < measure state →
      ∃ input after, step state input = some after)
    {state : State} (holds : Invariant state) :
    ∃ inputs last, run step state inputs = some last ∧ Invariant last ∧ measure last = 0 := by
  induction left : measure state generalizing state with
  | zero => exact ⟨[], state, rfl, holds, left⟩
  | succ more ih =>
    obtain ⟨input, next, stepped⟩ := progress state holds (by omega)
    have lowered := lowers state input next holds stepped
    obtain ⟨inputs, last, result, ends⟩ := ih (preserved state input next holds stepped) (by omega)
    exact ⟨input :: inputs, last, by simp [stepped, result], ends⟩

/-! ## What is never lost -/

/-- Once the property holds in a run over these inputs, it holds in every later state of it. -/
def Persists (step : State → Input → Option State) (first : State) (inputs : List Input)
    (Holds : State → Prop) : Prop :=
  ∀ earlier later rest before after, inputs = earlier ++ later ++ rest →
    run step first earlier = some before → run step before later = some after →
    Holds before → Holds after

/-- It is enough that no single step of the run loses the property. -/
theorem persists_iff {first : State} {inputs : List Input} {Holds : State → Prop} :
    Persists step first inputs Holds ↔
      ∀ earlier input rest before after, inputs = earlier ++ input :: rest →
        run step first earlier = some before → step before input = some after →
        Holds before → Holds after := by
  constructor
  · intro persists earlier input rest before after split reached stepped holds
    exact persists earlier [input] rest before after (by simp [split]) reached
      (by simp [stepped]) holds
  · intro stepwise earlier later
    induction later generalizing earlier with
    | nil =>
      intro rest before after _ _ result holds
      cases result
      exact holds
    | cons input later ih =>
      intro rest before after split reached result holds
      obtain ⟨next, stepped, result⟩ := Option.bind_eq_some_iff.mp result
      have kept : Holds next := stepwise earlier input (later ++ rest) before next
        (by simp [split]) reached stepped holds
      exact ih (earlier ++ [input]) rest next after (by simp [split])
        (by simp [run_append, reached, stepped]) result kept

theorem exists_step_of_run {first last : State} {inputs earlier rest : List Input} {input : Input}
    (result : run step first inputs = some last) (split : inputs = earlier ++ input :: rest)
    {before : State} (reached : run step first earlier = some before) :
    ∃ after, step before input = some after := by
  rw [split, run_append, reached, Option.bind_some, run_cons] at result
  obtain ⟨after, stepped, -⟩ := Option.bind_eq_some_iff.mp result
  exact ⟨after, stepped⟩

theorem exists_step_of_mem {first last : State} {inputs : List Input} {input : Input}
    (result : run step first inputs = some last) (membership : input ∈ inputs) :
    ∃ before after, step before input = some after := by
  obtain ⟨earlier, rest, split⟩ := List.append_of_mem membership
  obtain ⟨before, reached⟩ : ∃ before, run step first earlier = some before := by
    rw [split, run_append] at result
    obtain ⟨before, reached, -⟩ := Option.bind_eq_some_iff.mp result
    exact ⟨before, reached⟩
  exact ⟨before, exists_step_of_run result split reached⟩

/-! ## Deadlocks -/

def Enabled (step : State → Input → Option State) (state : State) : Prop :=
  ∃ input after, step state input = some after

/-- No run gets stuck before the machine has finished. -/
def DeadlockFree (step : State → Input → Option State) (Finished : State → Prop)
    (first : State) : Prop :=
  ∀ inputs state, run step first inputs = some state → ¬Finished state → Enabled step state

theorem deadlockFree_of_invariant (Invariant : State → Prop)
    (preserved : ∀ before input after, Invariant before → step before input = some after →
      Invariant after) {Finished : State → Prop}
    (progress : ∀ state, Invariant state → ¬Finished state → Enabled step state)
    {first : State} (holds : Invariant first) : DeadlockFree step Finished first :=
  fun _ state result unfinished =>
    progress state (invariant_of_run Invariant preserved holds result) unfinished

end PqcUtils.Runs

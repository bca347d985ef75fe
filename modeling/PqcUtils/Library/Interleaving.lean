import PqcUtils.Library.Runs
import Mathlib.Logic.Function.Basic

/-!
# Interleaved programs

Any number of processes share a world that answers one request at a time. A
process is a program that asks and goes on with the answer. The scheduler picks
the process whose request is answered next. The log keeps every request with the
world in front of it, so the log of one process alone determines how far its
program has come, and the log of all of them how the world has changed.
-/

namespace PqcUtils.Interleaving

universe u v w

/-- A program between two of its requests. -/
inductive Program (Request : Type u) (Response : Type v) (Result : Type w) where
  | done (result : Result)
  | ask (request : Request) (next : Response → Program Request Response Result)

structure Entry (Process Request Response World : Type*) where
  process : Process
  request : Request
  before : World
  response : Response

structure State (Process Request Response Result World : Type*) where
  world : World
  programs : Process → Program Request Response Result
  log : List (Entry Process Request Response World)

variable {Process Request Response Result World : Type*}
  {handle : World → Request → Response × World}

def step [DecidableEq Process] (handle : World → Request → Response × World)
    (state : State Process Request Response Result World) (process : Process) :
    Option (State Process Request Response Result World) :=
  match state.programs process with
  | .done _ => none
  | .ask request next =>
    let answer := handle state.world request
    some {
      world := answer.2
      programs := Function.update state.programs process (next answer.1)
      log := state.log ++ [⟨process, request, state.world, answer.1⟩] }

def start (world : World) (programs : Process → Program Request Response Result) :
    State Process Request Response Result World := ⟨world, programs, []⟩

/-! ## One process -/

def Program.resume [DecidableEq Request] : Program Request Response Result →
    List (Entry Process Request Response World) → Option (Program Request Response Result)
  | program, [] => some program
  | .done _, _ :: _ => none
  | .ask request next, entry :: entries =>
    if entry.request = request then (next entry.response).resume entries else none

@[simp] theorem Program.resume_nil [DecidableEq Request]
    (program : Program Request Response Result) :
    program.resume ([] : List (Entry Process Request Response World)) = some program := by
  cases program <;> rfl

theorem Program.resume_append [DecidableEq Request] (program : Program Request Response Result)
    (entries more : List (Entry Process Request Response World)) :
    program.resume (entries ++ more) =
      (program.resume entries).bind fun later => later.resume more := by
  induction entries generalizing program with
  | nil => simp
  | cons entry entries ih =>
    cases program with
    | done result => rfl
    | ask request next =>
      simp only [List.cons_append, resume]
      split
      · exact ih _
      · rfl

def State.logOf [DecidableEq Process] (state : State Process Request Response Result World)
    (process : Process) : List (Entry Process Request Response World) :=
  state.log.filter fun entry => decide (entry.process = process)

/-! ## The world -/

/-- The world changes by one request after the other. -/
def Chained (handle : World → Request → Response × World) :
    World → List (Entry Process Request Response World) → World → Prop
  | first, [], last => last = first
  | first, entry :: entries, last =>
    entry.before = first ∧ entry.response = (handle first entry.request).1 ∧
      Chained handle (handle first entry.request).2 entries last

theorem chained_append {first last : World}
    {entries more : List (Entry Process Request Response World)} :
    Chained handle first (entries ++ more) last ↔
      ∃ middle, Chained handle first entries middle ∧ Chained handle middle more last := by
  induction entries generalizing first with
  | nil => simp [Chained]
  | cons entry entries ih =>
    simp only [List.cons_append, Chained, ih, exists_and_left, and_assoc]

/-- What every request leaves as it is holds of all later worlds. -/
theorem Chained.kept {first last : World} {entries : List (Entry Process Request Response World)}
    (chained : Chained handle first entries last) (Holds : World → Prop)
    (kept : ∀ world request, Holds world → Holds (handle world request).2) (holds : Holds first) :
    Holds last ∧ ∀ entry ∈ entries, Holds entry.before := by
  induction entries generalizing first with
  | nil =>
    rw [Chained] at chained
    exact ⟨chained ▸ holds, nofun⟩
  | cons entry entries ih =>
    obtain ⟨before, -, rest⟩ := chained
    obtain ⟨atEnd, later⟩ := ih rest (kept first entry.request holds)
    exact ⟨atEnd, List.forall_mem_cons.mpr ⟨before ▸ holds, later⟩⟩

theorem Chained.response_eq {first last : World}
    {entries : List (Entry Process Request Response World)}
    (chained : Chained handle first entries last) :
    ∀ entry ∈ entries, entry.response = (handle entry.before entry.request).1 := by
  induction entries generalizing first with
  | nil => exact nofun
  | cons entry entries ih =>
    obtain ⟨before, answered, rest⟩ := chained
    exact List.forall_mem_cons.mpr ⟨before ▸ answered, ih rest⟩

/-! ## Runs -/

section Runs

variable [DecidableEq Process] {state : State Process Request Response Result World}
  {schedule : List Process} {world : World} {programs : Process → Program Request Response Result}

/-- Every process is where its own log takes it. -/
theorem resume_logOf [DecidableEq Request]
    (reached : Runs.run (step handle) (start world programs) schedule = some state)
    (process : Process) :
    (programs process).resume (state.logOf process) = some (state.programs process) := by
  revert process
  refine Runs.invariant_of_run (fun state => ∀ process,
    (programs process).resume (state.logOf process) = some (state.programs process))
    ?_ (fun process => by simp [start, State.logOf]) reached
  intro before scheduled after resumed stepped process
  unfold step at stepped
  split at stepped
  · cases stepped
  · next request next asks =>
    cases stepped
    by_cases own : scheduled = process
    · subst own
      have answered := resumed scheduled
      rw [asks] at answered
      simp only [State.logOf, List.filter_append, Program.resume_append] at answered ⊢
      simp [answered, Program.resume]
    · have idle := resumed process
      simp only [State.logOf, List.filter_append] at idle ⊢
      simpa [own, Function.update_of_ne (Ne.symm own)] using idle

theorem chained_log
    (reached : Runs.run (step handle) (start world programs) schedule = some state) :
    Chained handle world state.log state.world := by
  have atStart : Chained handle world (start world programs : State Process _ _ _ _).log
      (start world programs : State Process _ _ _ _).world := rfl
  refine Runs.invariant_of_run (fun state => Chained handle world state.log state.world)
    ?_ atStart reached
  intro before scheduled after chained stepped
  unfold step at stepped
  split at stepped
  · cases stepped
  · cases stepped
    exact chained_append.mpr ⟨before.world, chained, rfl, rfl, rfl⟩

end Runs

end PqcUtils.Interleaving

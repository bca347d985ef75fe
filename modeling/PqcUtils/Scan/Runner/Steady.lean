import PqcUtils.Scan.Runner.Schedules

/-!
# What the network answers

Every result is what some answer to its target gives. If the network answers each
target in one way, whenever it is asked, then all that a schedule can change is the
order of the results.
-/

namespace PqcUtils.Scan

open WorkerPool

inductive Turn where
  | main
  | worker (no : Nat)
  deriving DecidableEq, Repr

variable (config : Config) (options : ScanOptions) (answers : Target → Network)
  (admits : Target → Network → Prop)

def scannedBy (state : RunnerState) (no : Nat) : Option Target :=
  match state.workers[no]? with
  | some (.working target) => some target
  | _ => none

/-- The answer does not matter to a thread that scans nothing. -/
def Turn.event (state : RunnerState) : Turn → RunnerEvent
  | .main => .main
  | .worker no =>
    .worker no (((scannedBy state no).map answers).getD ⟨.error "", fun _ _ => .error ""⟩)

def turnStep (state : RunnerState) (turn : Turn) : Option RunnerState :=
  runnerStep config options state (turn.event answers state)

def OfAnswer (result : ScanResult) : Prop :=
  ∃ target network, admits target network ∧ scanTarget config options target network = some result

/-- All results on the way were given by answers to their targets. -/
structure Answered (state : RunnerState) : Prop where
  sending : ∀ result, .sending result ∈ state.workers → OfAnswer config options admits result
  channel : ∀ result ∈ state.channel, result ≠ .done → OfAnswer config options admits result
  collected : ∀ result ∈ state.collector.collected, OfAnswer config options admits result

variable {config options answers admits}

theorem answered_startRunner : Answered config options admits (startRunner options) :=
  ⟨by simp [startRunner], by simp [startRunner], by simp [startRunner]⟩

theorem Answered.mainStep {before after : RunnerState}
    (answered : Answered config options admits before)
    (stepped : mainStep options before = some after) : Answered config options admits after := by
  obtain ⟨sending, channel, collected⟩ := answered
  obtain ⟨queue, workers, content, collector⟩ := before
  cases collector with
  | spawning left =>
    cases left with
    | zero => cases stepped; exact ⟨sending, channel, by simp⟩
    | succ left => cases stepped; exact ⟨by simpa using sending, channel, by simp⟩
  | collecting numThreads results =>
    cases content with
    | nil => simp [Scan.mainStep, resultSenders] at stepped
    | cons result content =>
      obtain ⟨first, others⟩ := List.forall_mem_cons.mp channel
      cases result with
      | done =>
        cases numThreads with
        | zero => cases stepped; exact ⟨sending, others, by simp⟩
        | succ numThreads =>
          cases stepped
          refine ⟨sending, others, ?_⟩
          by_cases last : numThreads = 0 <;> simpa [last] using collected
      | ssh | tls =>
        cases stepped
        refine ⟨sending, others, ?_⟩
        exact List.forall_mem_append.mpr ⟨collected, by simpa using first⟩
  | returned | underflowed => cases stepped

theorem Answered.workerStep {before after : RunnerState} {no : Nat} {network : Network}
    (answered : Answered config options admits before)
    (admitted : ∀ target, before.workers[no]? = some (.working target) → admits target network)
    (stepped : workerStep config options before no network = some after) :
    Answered config options admits after := by
  obtain ⟨sending, channel, collected⟩ := answered
  -- A thread that sends a result after the step has sent it before, or has just found it.
  have kept {next : Worker Target ScanResult}
      (found : ∀ result, next = .sending result → OfAnswer config options admits result) :
      ∀ result, .sending result ∈ before.workers.set no next →
        OfAnswer config options admits result := by
    intro result membership
    rcases List.mem_or_eq_of_mem_set membership with earlier | now
    · exact sending result earlier
    · exact found result now.symm
  have sent {result : ScanResult} (now : result ≠ .done → OfAnswer config options admits result) :
      ∀ other ∈ before.channel ++ [result], other ≠ .done →
        OfAnswer config options admits other :=
    List.forall_mem_append.mpr ⟨channel, by simpa using now⟩
  unfold Scan.workerStep at stepped
  cases standing : before.workers[no]? with
  | none => simp [standing] at stepped
  | some worker =>
    simp only [standing] at stepped
    cases worker with
    | receiving =>
      cases queued : before.queue with
      | nil =>
        simp only [queued, Option.ite_none_right_eq_some, Option.some.injEq] at stepped
        rw [← stepped.2]
        exact ⟨kept nofun, channel, collected⟩
      | cons target queue =>
        simp only [queued] at stepped
        split at stepped
        all_goals
          cases stepped
          exact ⟨kept nofun, channel, collected⟩
    | working target =>
      obtain ⟨result, scanned, rfl⟩ := Option.map_eq_some_iff.mp stepped
      refine ⟨kept ?_, channel, collected⟩
      rintro _ ⟨⟩
      exact ⟨target, network, admitted target standing, scanned⟩
    | sending result =>
      cases stepped
      exact ⟨kept nofun, sent fun _ => sending result (List.mem_of_getElem? standing), collected⟩
    | quitting =>
      cases stepped
      exact ⟨kept nofun, sent fun content => absurd rfl content, collected⟩
    | exited => cases stepped

variable (config options admits) in
/-- The answers on the way are admitted for the targets they are given for. -/
def Admitted (events : List RunnerEvent) : Prop :=
  ∀ earlier no network rest before target, events = earlier ++ .worker no network :: rest →
    Runs.run (runnerStep config options) (startRunner options) earlier = some before →
    before.workers[no]? = some (.working target) → admits target network

theorem answered_of_run {events : List RunnerEvent} {state : RunnerState}
    (admitted : Admitted config options admits events)
    (ran : Runs.run (runnerStep config options) (startRunner options) events = some state) :
    Answered config options admits state := by
  have persists : Runs.Persists (runnerStep config options) (startRunner options) events
      (Answered config options admits) := by
    rw [Runs.persists_iff]
    intro earlier event rest before after split reached stepped answered
    cases event with
    | main => exact answered.mainStep stepped
    | worker no network =>
      exact answered.workerStep
        (fun target => admitted earlier no network rest before target split reached) stepped
  exact persists [] events [] _ state (by simp) rfl ran answered_startRunner

theorem answered_of_turns {turns : List Turn} {state : RunnerState}
    (ran : Runs.run (turnStep config options answers) (startRunner options) turns = some state) :
    Answered config options (fun target network => network = answers target) state := by
  refine Runs.invariant_of_run _ ?_ answered_startRunner ran
  intro before turn after answered stepped
  cases turn with
  | main => exact answered.mainStep stepped
  | worker no =>
    refine answered.workerStep (fun target standing => ?_) stepped
    simp [scannedBy, standing]

theorem sound_of_turns {turns : List Turn} {state : RunnerState}
    (result : Runs.run (turnStep config options answers) (startRunner options) turns = some state) :
    Sound (scanProtocol config options) options.targets options.threads state :=
  Runs.invariant_of_run
    (fun state => Sound (scanProtocol config options) options.targets options.threads state)
    (fun _ _ _ sound stepped => sound.step (transition_of_runnerStep stepped))
    (sound_startRunner config options) result

theorem results_of_turns (named : ∀ target ∈ options.targets, target.host ≠ "")
    {turns : List Turn} {state : RunnerState}
    (ran : Runs.run (turnStep config options answers) (startRunner options) turns = some state)
    {results : List ScanResult} (returned : state.collector = .returned results) :
    (results.map some).Perm
      (options.targets.map fun target => scanTarget config options target (answers target)) := by
  have plain : ∀ target ∈ options.targets, (scanProtocol config options).quits target = false :=
    fun target membership => decide_eq_false (named target membership)
  have complete : (results.map ScanResult.targetspec).Perm (options.targets.map some) :=
    (sound_of_turns ran).collected_perm plain returned
  have answered := (answered_of_turns ran).collected
  rw [returned] at answered
  let answer (about : Option Target) : Option ScanResult :=
    about.bind fun target => scanTarget config options target (answers target)
  have results_eq : results.map some = (results.map ScanResult.targetspec).map answer := by
    rw [List.map_map]
    refine List.map_congr_left fun result membership => ?_
    obtain ⟨target, _, rfl, scanned⟩ := answered result membership
    simp [answer, targetspec_of_scanTarget scanned, scanned]
  rw [results_eq]
  simpa [answer, Function.comp_def] using complete.map answer

end PqcUtils.Scan

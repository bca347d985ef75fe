import PqcUtils.Scan.Runner
import PqcUtils.Scan.Target

/-!
# The scan runner under every schedule

Each step of the runner is a transition of a worker pool, and each transition is
a step of the runner. So what holds of pools holds of the runner: when it returns
it has one result for each target, and it never gets stuck, as long as there is a
thread at all.
-/

namespace PqcUtils.Scan

open WorkerPool

variable {config : Config} {options : ScanOptions}

/-! ## Results name their targets -/

theorem targetspec_of_sshScanTarget {kexAlgos : HashMap String KexAlgo} {target : Target}
    {connected : Except String (String × Connection)} {result : ScanResult}
    (scanned : sshScanTarget kexAlgos target connected = some result) :
    result.targetspec = some target := by
  unfold sshScanTarget at scanned
  repeat' split at scanned
  all_goals cases scanned <;> rfl

theorem targetspec_testGroups (target : Target) (attempt : String → TlsGroup → GroupAttempt)
    (groups : List (String × TlsGroup)) (findings : TlsFindings) :
    (testGroups target attempt groups findings).targetspec = some target := by
  induction groups generalizing findings with
  | nil => rfl
  | cons entry groups ih =>
    obtain ⟨groupName, group⟩ := entry
    simp only [testGroups]
    cases attempt groupName group with
    | error error => rfl
    | ok attempted =>
      obtain ⟨addr, _ | _⟩ := attempted <;> exact ih _

theorem targetspec_of_scanTarget {target : Target} {network : Network} {result : ScanResult}
    (scanned : scanTarget config options target network = some result) :
    result.targetspec = some target := by
  unfold scanTarget at scanned
  split at scanned
  · cases scanned
    exact targetspec_testGroups _ _ _ _
  · exact targetspec_of_sshScanTarget scanned

theorem exists_scanTarget (config : Config) (options : ScanOptions) (target : Target) :
    ∃ network result, scanTarget config options target network = some result := by
  let silent : Network := ⟨.error "", fun _ _ => .error ""⟩
  unfold scanTarget
  cases options.scanType with
  | tls => exact ⟨silent, _, rfl⟩
  | ssh => exact ⟨silent, _, rfl⟩

/-! ## The runner is a worker pool -/

/-- Empty hosts quit, `Done` ends a thread, and a scan is what a thread does for a target. -/
def scanProtocol (config : Config) (options : ScanOptions) : Protocol Target ScanResult where
  quits target := decide (target.host = "")
  marker := ⟨"", 0⟩
  done := .done
  task := ScanResult.targetspec
  Performs target result := ∃ network, scanTarget config options target network = some result
  quits_marker := rfl
  task_done := rfl
  task_of_performs := fun ⟨_, scanned⟩ => targetspec_of_scanTarget scanned

theorem exists_split_of_getElem? {Worker : Type} {workers : List Worker} {no : Nat}
    {worker : Worker} (found : workers[no]? = some worker) :
    ∃ before after, workers = before ++ worker :: after ∧
      ∀ next, workers.set no next = before ++ next :: after := by
  obtain ⟨inside, rfl⟩ := List.getElem?_eq_some_iff.mp found
  refine ⟨workers.take no, workers.drop (no + 1), ?_, fun next => ?_⟩
  · rw [List.getElem_cons_drop, List.take_append_drop]
  · rw [List.set_eq_take_append_cons_drop, if_pos inside]

theorem transition_of_mainStep {before after : RunnerState}
    (stepped : mainStep options before = some after) :
    Transition (scanProtocol config options) options.threads before after := by
  obtain ⟨queue, workers, channel, collector⟩ := before
  cases collector with
  | spawning left =>
    cases left with
    | zero => cases stepped; exact .ready
    | succ left => cases stepped; exact .spawn
  | collecting numThreads results =>
    cases channel with
    | nil => simp [mainStep, resultSenders] at stepped
    | cons result channel =>
      cases result with
      | done =>
        cases numThreads with
        | zero => cases stepped; exact .underflow
        | succ numThreads => cases stepped; exact .countDown
      | ssh | tls => cases stepped; exact .collect (by simp [scanProtocol])
  | returned | underflowed => cases stepped

theorem transition_of_workerStep {before after : RunnerState} {no : Nat} {network : Network}
    (stepped : workerStep config options before no network = some after) :
    Transition (scanProtocol config options) options.threads before after := by
  obtain ⟨queue, workers, channel, collector⟩ := before
  simp only [workerStep] at stepped
  cases found : workers[no]? with
  | none => simp [found] at stepped
  | some worker =>
    obtain ⟨left, right, rfl, set⟩ := exists_split_of_getElem? found
    simp only [found, set] at stepped
    cases worker with
    | receiving =>
      cases queue with
      | nil =>
        simp only [Option.ite_none_right_eq_some, Option.some.injEq] at stepped
        obtain ⟨gone, rfl⟩ := stepped
        exact .hangUp (targetSenders_eq_zero_iff.mp gone)
      | cons target queue =>
        by_cases empty : target.host = ""
        · simp only [empty, if_true, Option.some.injEq] at stepped
          subst stepped
          exact .quit (by simpa [scanProtocol] using empty)
        · simp only [empty, if_false, Option.some.injEq] at stepped
          subst stepped
          exact .take (by simpa [scanProtocol] using empty)
    | working target =>
      obtain ⟨result, scanned, rfl⟩ := Option.map_eq_some_iff.mp stepped
      exact .finish ⟨network, scanned⟩
    | sending result => cases stepped; exact .send
    | quitting => cases stepped; exact .sendDone
    | exited => cases stepped

theorem transition_of_runnerStep {before after : RunnerState} {event : RunnerEvent}
    (stepped : runnerStep config options before event = some after) :
    Transition (scanProtocol config options) options.threads before after := by
  cases event with
  | main => exact transition_of_mainStep stepped
  | worker no network => exact transition_of_workerStep stepped

/-- Every transition of the pool is a step, for some schedule. -/
theorem exists_runnerStep {before after : RunnerState}
    (transition : Transition (scanProtocol config options) options.threads before after) :
    ∃ event, runnerStep config options before event = some after := by
  have anyNetwork : Network := ⟨.error "", fun _ _ => .error ""⟩
  cases transition with
  | spawn | ready | countDown | underflow => exact ⟨.main, rfl⟩
  | @collect result _ _ _ _ _ content =>
    cases result with
    | done => exact absurd rfl content
    | ssh | tls => exact ⟨.main, rfl⟩
  | @take _ _ left _ _ _ stays =>
    have named := of_decide_eq_false stays
    exact ⟨.worker left.length anyNetwork, by simp [runnerStep, workerStep, named]⟩
  | @quit _ _ left _ _ _ quits =>
    have empty := of_decide_eq_true quits
    exact ⟨.worker left.length anyNetwork, by simp [runnerStep, workerStep, empty]⟩
  | @hangUp left right channel collector gone =>
    have silent : targetSenders ⟨[], left ++ .receiving :: right, channel, collector⟩ = 0 :=
      targetSenders_eq_zero_iff.mpr gone
    exact ⟨.worker left.length anyNetwork, by simp [runnerStep, workerStep, silent]⟩
  | @finish _ _ _ left _ _ _ performed =>
    obtain ⟨network, scanned⟩ := performed
    exact ⟨.worker left.length network, by simp [runnerStep, workerStep, scanned]⟩
  | @send _ _ left => exact ⟨.worker left.length anyNetwork, by simp [runnerStep, workerStep]⟩
  | @sendDone _ left =>
    exact ⟨.worker left.length anyNetwork, by simp [runnerStep, workerStep, scanProtocol]⟩

/-! ## Completeness -/

theorem sound_startRunner (config : Config) (options : ScanOptions) :
    Sound (scanProtocol config options) options.targets options.threads (startRunner options) :=
  sound_initial (scanProtocol config options) options.targets options.threads

theorem sound_of_run {events : List RunnerEvent} {state : RunnerState}
    (result : Runs.run (runnerStep config options) (startRunner options) events = some state) :
    Sound (scanProtocol config options) options.targets options.threads state :=
  Runs.invariant_of_run
    (fun state => Sound (scanProtocol config options) options.targets options.threads state)
    (fun _ _ _ sound stepped => sound.step (transition_of_runnerStep stepped))
    (sound_startRunner config options) result

/-- Under every schedule: the count of threads never falls below zero, and what is returned is one
result for each target, made by a scan of that target, and no `Done`. -/
theorem results_complete (named : ∀ target ∈ options.targets, target.host ≠ "")
    {events : List RunnerEvent} {state : RunnerState}
    (result : Runs.run (runnerStep config options) (startRunner options) events = some state) :
    state.collector ≠ .underflowed ∧
    ∀ results, state.collector = .returned results →
      (results.map ScanResult.targetspec).Perm (options.targets.map some) ∧
      .done ∉ results ∧
      ∀ result ∈ results, ∃ target ∈ options.targets, ∃ network,
        scanTarget config options target network = some result := by
  have sound := sound_of_run result
  refine ⟨sound.counted.stable, fun results returned => ?_⟩
  have plain : ∀ target ∈ options.targets,
      (scanProtocol config options).quits target = false :=
    fun target membership => decide_eq_false (named target membership)
  have complete := sound.collected_perm plain returned
  have genuine := sound.faithful.collected
  rw [returned] at genuine
  refine ⟨complete, fun membership => (genuine _ membership).ne_done rfl, ?_⟩
  intro result membership
  obtain ⟨target, network, scanned⟩ := genuine result membership
  have about : some target ∈ options.targets.map some := by
    rw [← complete.mem_iff, ← targetspec_of_scanTarget scanned]
    exact List.mem_map_of_mem membership
  refine ⟨target, ?_, network, scanned⟩
  simpa using about

/-- The same target twice, and more threads than targets. -/
def twoTargets : ScanOptions where
  numThreads := 8
  targets := [⟨"localhost", 22⟩, ⟨"localhost", 22⟩]
  scanType := .ssh
  scanHybridAlgosOnly := false
  scanNonpqcAlgos := false

def unreachable : Network := ⟨.error "Could not resolve localhost", fun _ _ => .error ""⟩

/-- The second thread is done before the first one has scanned its target. -/
def overtaking : List RunnerEvent :=
  [.main, .main, .main, .worker 0 unreachable] ++ List.replicate 5 (.worker 1 unreachable) ++
    [.main, .main] ++ List.replicate 4 (.worker 0 unreachable) ++ [.main, .main]

theorem results_complete_two_targets :
    ∃ state results,
      Runs.run (runnerStep ⟨∅, []⟩ twoTargets) (startRunner twoTargets) overtaking = some state ∧
      state.collector = .returned results ∧
      (results.map ScanResult.targetspec).Perm (twoTargets.targets.map some) := by
  have named : ∀ target ∈ twoTargets.targets, target.host ≠ "" := by decide
  have result : Runs.run (runnerStep ⟨∅, []⟩ twoTargets) (startRunner twoTargets) overtaking =
      some _ := rfl
  exact ⟨_, _, result, rfl, ((results_complete named result).2 _ rfl).1⟩

/-! ## Progress -/

def Finished (state : RunnerState) : Prop := ∃ results, state.collector = .returned results

theorem threads_pos_iff (options : ScanOptions) :
    0 < options.threads ↔ 0 < options.numThreads ∧ options.targets ≠ [] := by
  rw [ScanOptions.threads, ← List.length_pos_iff]
  split <;> omega

/-- The state in which the runner of no threads waits. -/
theorem stuck_of_no_threads (config : Config) (options : ScanOptions)
    (none : options.threads = 0) :
    ∃ events state,
      Runs.run (runnerStep config options) (startRunner options) events = some state ∧
      ¬Finished state ∧ ¬Runs.Enabled (runnerStep config options) state := by
  refine ⟨[.main], ⟨options.targets, [], [], .collecting 0 []⟩, ?_, ?_, ?_⟩
  · simp [runnerStep, mainStep, startRunner, none]
  · rintro ⟨results, returned⟩
    cases returned
  · rintro ⟨event, after, stepped⟩
    cases event with
    | main => simp [runnerStep, mainStep, resultSenders] at stepped
    | worker no network => simp [runnerStep, workerStep] at stepped

/-- The runner never gets stuck exactly when there is a target and a thread to scan it. -/
theorem deadlockFree_iff (config : Config) (options : ScanOptions) :
    Runs.DeadlockFree (runnerStep config options) Finished (startRunner options) ↔
      0 < options.numThreads ∧ options.targets ≠ [] := by
  rw [← threads_pos_iff]
  constructor
  · intro free
    by_contra none
    obtain ⟨events, state, result, unfinished, stuck⟩ :=
      stuck_of_no_threads config options (by omega)
    exact stuck (free events state result unfinished)
  · intro positive
    refine Runs.deadlockFree_of_invariant
      (Sound (scanProtocol config options) options.targets options.threads)
      (fun _ _ _ sound stepped => sound.step (transition_of_runnerStep stepped)) ?_
      (sound_startRunner config options)
    intro state sound unfinished
    have performable (target : Target) :
        ∃ result, (scanProtocol config options).Performs target result := by
      obtain ⟨network, result, scanned⟩ := exists_scanTarget config options target
      exact ⟨result, network, scanned⟩
    obtain ⟨after, transition⟩ := sound.progress positive performable
      fun results returned => unfinished ⟨results, returned⟩
    obtain ⟨event, stepped⟩ := exists_runnerStep transition
    exact ⟨event, after, stepped⟩

def commentsOnly : TargetArgs := ⟨none, some (.ok (Text.toUtf8 "# no targets yet\n"))⟩

/-- From such a file no target is read, and the runner waits for a result that nobody sends. -/
theorem stuck_on_comments_only :
    getTargets commentsOnly (some 22) = .ok [] ∧
      ∃ events state,
        Runs.run (runnerStep ⟨∅, []⟩ ⟨8, [], .ssh, false, false⟩)
          (startRunner ⟨8, [], .ssh, false, false⟩) events = some state ∧
        ¬Finished state ∧ ¬Runs.Enabled (runnerStep ⟨∅, []⟩ ⟨8, [], .ssh, false, false⟩) state :=
  ⟨by decide +kernel, stuck_of_no_threads _ _ rfl⟩

end PqcUtils.Scan

import PqcUtils.Scan.Runner.Termination

/-!
# Scans that panic

A panic in a scan ends its thread. The thread says nothing, and the runner, which
holds a sender of its own, waits for it for ever. So a scan returns exactly if no
scan of a target has panicked on the way.
-/

namespace PqcUtils.Scan

open WorkerPool

variable {config : Config} {options : ScanOptions}

/-! ## Threads that are gone -/

/-- The runner, and the threads whose scan has panicked. -/
structure Crew where
  runner : RunnerState
  dead : List Nat

def startCrew (options : ScanOptions) : Crew := ⟨startRunner options, []⟩

def scanPanics (config : Config) (options : ScanOptions) (runner : RunnerState) (no : Nat)
    (network : Network) : Bool :=
  match runner.workers[no]? with
  | some (.working target) => (scanTarget config options target network).isNone
  | _ => false

/-- A panic ends the thread, and its sender is dropped. The runner holds another one as long as it
waits, so it does not notice. -/
def crewStep (config : Config) (options : ScanOptions) (crew : Crew) : RunnerEvent → Option Crew
  | .main => (mainStep options crew.runner).map fun runner => { crew with runner }
  | .worker no network =>
    if no ∈ crew.dead then none
    else if scanPanics config options crew.runner no network then
      some { crew with dead := no :: crew.dead }
    else
      (workerStep config options crew.runner no network).map fun runner => { crew with runner }

theorem scanPanics_iff {runner : RunnerState} {no : Nat} {network : Network} :
    scanPanics config options runner no network = true ↔ ∃ target,
      runner.workers[no]? = some (.working target) ∧
        scanTarget config options target network = none := by
  unfold scanPanics
  split
  · next target standing => simp [standing]
  · next other =>
    refine iff_of_false (by simp) ?_
    rintro ⟨target, standing, -⟩
    exact other target standing

/-- A thread takes a step of its own, or it is gone. -/
theorem crewStep_cases {before after : Crew} {event : RunnerEvent}
    (stepped : crewStep config options before event = some after) :
    (runnerStep config options before.runner event = some after.runner ∧
      after.dead = before.dead ∧ ∀ no network, event = .worker no network → no ∉ before.dead) ∨
    ∃ no target, no ∉ before.dead ∧ before.runner.workers[no]? = some (.working target) ∧
      after = { before with dead := no :: before.dead } := by
  cases event with
  | main =>
    obtain ⟨runner, main, rfl⟩ := Option.map_eq_some_iff.mp stepped
    exact .inl ⟨main, rfl, nofun⟩
  | worker no network =>
    rw [crewStep] at stepped
    split at stepped
    · cases stepped
    · next alive =>
      split at stepped
      · next panics =>
        obtain ⟨target, standing, -⟩ := scanPanics_iff.mp panics
        cases stepped
        exact .inr ⟨no, target, alive, standing, rfl⟩
      · obtain ⟨runner, worker, rfl⟩ := Option.map_eq_some_iff.mp stepped
        refine .inl ⟨worker, rfl, ?_⟩
        rintro _ _ ⟨⟩
        exact alive

theorem crewStep_of_runnerStep {before after : RunnerState} {event : RunnerEvent}
    (stepped : runnerStep config options before event = some after) :
    crewStep config options ⟨before, []⟩ event = some ⟨after, []⟩ := by
  cases event with
  | main =>
    have main : mainStep options before = some after := stepped
    rw [crewStep, main, Option.map_some]
  | worker no network =>
    have worker : workerStep config options before no network = some after := stepped
    have returns : ¬scanPanics config options before no network = true := by
      rw [scanPanics_iff]
      rintro ⟨target, standing, panics⟩
      simp [workerStep, standing, panics] at worker
    rw [crewStep, if_neg (List.not_mem_nil), if_neg returns, worker, Option.map_some]

/-! ## The threads that are left alone -/

theorem workers_of_mainStep {before after : RunnerState}
    (stepped : mainStep options before = some after) :
    ∃ spawned, after.workers = before.workers ++ spawned := by
  unfold mainStep at stepped
  split at stepped
  · cases stepped
    exact ⟨_, rfl⟩
  all_goals
    repeat' split at stepped
    all_goals
      cases stepped
      try exact ⟨[], (List.append_nil _).symm⟩

theorem workers_of_workerStep {before after : RunnerState} {no : Nat} {network : Network}
    (stepped : workerStep config options before no network = some after) :
    ∃ next, after.workers = before.workers.set no next := by
  unfold workerStep at stepped
  split at stepped
  case h_2 target standing =>
    obtain ⟨result, -, rfl⟩ := Option.map_eq_some_iff.mp stepped
    exact ⟨_, rfl⟩
  all_goals
    repeat' split at stepped
    all_goals
      cases stepped
      try exact ⟨_, rfl⟩

theorem getElem?_of_runnerStep {before after : RunnerState} {event : RunnerEvent} {other : Nat}
    {worker : Worker Target ScanResult}
    (stepped : runnerStep config options before event = some after)
    (idle : ∀ no network, event = .worker no network → no ≠ other)
    (standing : before.workers[other]? = some worker) : after.workers[other]? = some worker := by
  cases event with
  | main =>
    obtain ⟨spawned, workers⟩ := workers_of_mainStep stepped
    rw [workers, List.getElem?_append_left (List.getElem?_eq_some_iff.mp standing).1, standing]
  | worker no network =>
    obtain ⟨next, workers⟩ := workers_of_workerStep stepped
    rw [workers, List.getElem?_set_ne (idle no network rfl), standing]

/-- A thread that is gone stands where its scan has panicked. -/
structure Crew.Sound (config : Config) (options : ScanOptions) (crew : Crew) : Prop where
  sound : WorkerPool.Sound (scanProtocol config options) options.targets options.threads crew.runner
  once : crew.dead.Nodup
  standing : ∀ no ∈ crew.dead, ∃ target, crew.runner.workers[no]? = some (.working target)

theorem sound_startCrew (config : Config) (options : ScanOptions) :
    (startCrew options).Sound config options :=
  ⟨sound_startRunner config options, List.nodup_nil, List.forall_mem_nil _⟩

theorem Crew.Sound.step {before after : Crew} {event : RunnerEvent}
    (sound : before.Sound config options)
    (stepped : crewStep config options before event = some after) :
    after.Sound config options := by
  rcases crewStep_cases stepped with ⟨runner, dead, alive⟩ | ⟨no, target, alive, here, rfl⟩
  · refine ⟨sound.sound.step (transition_of_runnerStep runner), dead ▸ sound.once, ?_⟩
    rw [dead]
    intro no membership
    obtain ⟨target, standing⟩ := sound.standing no membership
    refine ⟨target, getElem?_of_runnerStep runner ?_ standing⟩
    rintro other network rfl rfl
    exact alive other network rfl membership
  · exact ⟨sound.sound, List.nodup_cons.mpr ⟨alive, sound.once⟩,
      List.forall_mem_cons.mpr ⟨⟨target, here⟩, sound.standing⟩⟩

/-! ## Counting -/

theorem length_le_stepsLeft {nos : List Nat} {workers : List (Worker Target ScanResult)}
    (once : nos.Nodup) (standing : ∀ no ∈ nos, ∃ target, workers[no]? = some (.working target)) :
    3 * nos.length ≤ (workers.map Worker.stepsLeft).sum := by
  induction nos generalizing workers with
  | nil => simp
  | cons no nos ih =>
    obtain ⟨fresh, once⟩ := List.nodup_cons.mp once
    obtain ⟨⟨target, here⟩, standing⟩ := List.forall_mem_cons.mp standing
    obtain ⟨before, after, split, set⟩ := exists_split_of_getElem? here
    -- The others stand where they did when this one is taken away.
    have others : ∀ other ∈ nos, ∃ target,
        (workers.set no .exited)[other]? = some (.working target) := by
      intro other membership
      have apart : no ≠ other := by
        rintro rfl
        exact fresh membership
      rw [List.getElem?_set_ne apart]
      exact standing other membership
    have rest := ih once others
    rw [set] at rest
    rw [split]
    simp [Worker.stepsLeft] at rest ⊢
    omega

theorem Crew.Sound.length_dead_le {crew : Crew} (sound : crew.Sound config options) :
    3 * crew.dead.length ≤ stepsLeft config options crew.runner := by
  have left := length_le_stepsLeft sound.once sound.standing
  rw [stepsLeft, State.stepsLeft]
  omega

/-- Every step is one less to take, be it of the runner, of a thread or its last one. -/
theorem stepsLeft_of_crewStep {before after : Crew} {event : RunnerEvent}
    (sound : before.Sound config options)
    (stepped : crewStep config options before event = some after) :
    stepsLeft config options before.runner - before.dead.length =
      stepsLeft config options after.runner - after.dead.length + 1 := by
  have bound := (sound.step stepped).length_dead_le
  rcases crewStep_cases stepped with ⟨runner, dead, -⟩ | ⟨no, target, -, -, rfl⟩
  · have lowered := stepsLeft_of_runnerStep sound.sound runner
    rw [dead] at bound ⊢
    omega
  · simp only [List.length_cons] at bound ⊢
    omega

theorem dead_ne_nil_of_run {before after : Crew} {events : List RunnerEvent}
    (result : Runs.run (crewStep config options) before events = some after)
    (gone : before.dead ≠ []) : after.dead ≠ [] := by
  refine Runs.invariant_of_run (fun crew => crew.dead ≠ []) ?_ gone result
  intro before event after gone stepped
  rcases crewStep_cases stepped with ⟨-, dead, -⟩ | ⟨no, target, -, -, rfl⟩
  · exact dead ▸ gone
  · exact List.cons_ne_nil _ _

/-! ## The end of a scan -/

theorem Crew.Sound.finished_iff {crew : Crew} (sound : crew.Sound config options)
    (named : ∀ target ∈ options.targets, target.host ≠ "") (positive : 0 < options.threads) :
    Finished crew.runner ↔ stepsLeft config options crew.runner - crew.dead.length = 0 := by
  have bound := sound.length_dead_le
  rw [finished_iff_stepsLeft named positive sound.sound]
  omega

theorem Crew.Sound.dead_of_finished {crew : Crew} (sound : crew.Sound config options)
    (named : ∀ target ∈ options.targets, target.host ≠ "") (positive : 0 < options.threads)
    (finished : Finished crew.runner) : crew.dead = [] := by
  have bound := sound.length_dead_le
  rw [(finished_iff_stepsLeft named positive sound.sound).mp finished] at bound
  exact List.length_eq_zero_iff.mp (by omega)

/-- Scans may panic. Then too no run is longer than one that returns, and what is returned is
complete; but a run can still return exactly if no scan has panicked so far. -/
theorem returns_iff_no_panic (named : ∀ target ∈ options.targets, target.host ≠ "")
    (threads : 0 < options.numThreads) (nonempty : options.targets ≠ [])
    {events : List RunnerEvent} {crew : Crew}
    (result : Runs.run (crewStep config options) (startCrew options) events = some crew) :
    events.length ≤ options.steps ∧ (Finished crew.runner ↔ events.length = options.steps) ∧
      (∀ results, crew.runner.collector = .returned results →
        (results.map ScanResult.targetspec).Perm (options.targets.map some)) ∧
      ((∃ more last, Runs.run (crewStep config options) crew more = some last ∧
        Finished last.runner) ↔ crew.dead = []) := by
  have positive := (threads_pos_iff options).mpr ⟨threads, nonempty⟩
  have kept : ∀ (before : Crew) event (after : Crew), before.Sound config options →
      crewStep config options before event = some after → after.Sound config options :=
    fun _ _ _ sound stepped => sound.step stepped
  have counted := Runs.measure_of_run _ kept
    (fun crew => stepsLeft config options crew.runner - crew.dead.length)
    (fun _ _ _ => stepsLeft_of_crewStep) (sound_startCrew config options) result
  have first : stepsLeft config options (startCrew options).runner = options.steps :=
    stepsLeft_startRunner named
  rw [first, startCrew, List.length_nil, Nat.sub_zero] at counted
  have sound := Runs.invariant_of_run _ kept (sound_startCrew config options) result
  refine ⟨by omega, ?_, fun results returned => ?_, ?_, fun alive => ?_⟩
  · rw [sound.finished_iff named positive]
    omega
  · refine sound.sound.collected_perm (fun target membership => ?_) returned
    exact decide_eq_false (named target membership)
  · rintro ⟨more, last, ran, finished⟩
    by_contra gone
    refine dead_ne_nil_of_run ran gone ?_
    exact (Runs.invariant_of_run _ kept sound ran).dead_of_finished named positive finished
  · obtain ⟨more, last, ran, finished⟩ := exists_completion named positive sound.sound
    have whole : crew = ⟨crew.runner, []⟩ := by rw [← alive]
    refine ⟨more, ⟨last, []⟩, ?_, finished⟩
    rw [whole]
    exact Runs.run_embed (fun runner => (⟨runner, []⟩ : Crew))
      (fun _ _ _ => crewStep_of_runnerStep) ran

/-- The first of two hosts sends a key exchange packet without its message. -/
def shortPacket : Network where
  ssh := .ok ("10.0.0.2:22", ⟨[.received [83, 83, 72, 45, 50, 10], .received [0, 0, 0, 2, 0, 20]],
    .written⟩)
  tls _ _ := .error ""

def bereaved : List RunnerEvent :=
  [.main, .main, .main, .worker 0 shortPacket, .worker 0 shortPacket] ++
    List.replicate 5 (.worker 1 unreachable) ++ [.main, .main]

theorem returns_iff_no_panic_two_targets :
    ∃ crew, Runs.run (crewStep ⟨∅, []⟩ twoTargets) (startCrew twoTargets) bereaved = some crew ∧
      crew.dead = [0] ∧ ¬∃ more last, Runs.run (crewStep ⟨∅, []⟩ twoTargets) crew more = some last ∧
        Finished last.runner := by
  have result : Runs.run (crewStep ⟨∅, []⟩ twoTargets) (startCrew twoTargets) bereaved =
      some _ := rfl
  obtain ⟨-, -, -, returns⟩ := returns_iff_no_panic (by decide) (by decide) (by decide) result
  exact ⟨_, rfl, rfl, fun more => List.cons_ne_nil _ _ (returns.mp more)⟩

end PqcUtils.Scan

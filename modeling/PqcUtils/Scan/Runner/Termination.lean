import PqcUtils.Scan.Runner.Schedules

/-!
# The scan runner terminates

Each target takes four steps, each thread four as well, and one more is the start of
the collection. Since nothing else ever happens, every schedule comes to its end
after the same number of steps.
-/

namespace PqcUtils.Scan

open WorkerPool

variable {config : Config} {options : ScanOptions}

def ScanOptions.steps (options : ScanOptions) : Nat :=
  4 * options.targets.length + 4 * options.threads + 1

def stepsLeft (config : Config) (options : ScanOptions) (state : RunnerState) : Nat :=
  state.stepsLeft (scanProtocol config options)

theorem stepsLeft_startRunner (named : ∀ target ∈ options.targets, target.host ≠ "") :
    stepsLeft config options (startRunner options) = options.steps :=
  stepsLeft_initial (scanProtocol config options) options.targets options.threads
    fun target membership => decide_eq_false (named target membership)

theorem stepsLeft_of_runnerStep {before after : RunnerState} {event : RunnerEvent}
    (sound : Sound (scanProtocol config options) options.targets options.threads before)
    (stepped : runnerStep config options before event = some after) :
    stepsLeft config options before = stepsLeft config options after + 1 :=
  (transition_of_runnerStep stepped).stepsLeft sound.counted

theorem enabled_of_sound (positive : 0 < options.threads) {state : RunnerState}
    (sound : Sound (scanProtocol config options) options.targets options.threads state)
    (unfinished : ¬Finished state) : Runs.Enabled (runnerStep config options) state := by
  have performable (target : Target) :
      ∃ result, (scanProtocol config options).Performs target result := by
    obtain ⟨network, result, scanned⟩ := exists_scanTarget config options target
    exact ⟨result, network, scanned⟩
  obtain ⟨after, transition⟩ := sound.progress positive performable
    fun results returned => unfinished ⟨results, returned⟩
  obtain ⟨event, stepped⟩ := exists_runnerStep transition
  exact ⟨event, after, stepped⟩

theorem finished_iff_stepsLeft (named : ∀ target ∈ options.targets, target.host ≠ "")
    (positive : 0 < options.threads) {state : RunnerState}
    (sound : Sound (scanProtocol config options) options.targets options.threads state) :
    Finished state ↔ stepsLeft config options state = 0 := by
  constructor
  · rintro ⟨results, returned⟩
    exact sound.stepsLeft_of_returned
      (fun target membership => decide_eq_false (named target membership)) returned
  · intro done
    by_contra unfinished
    obtain ⟨event, after, stepped⟩ := enabled_of_sound positive sound unfinished
    have lowered := stepsLeft_of_runnerStep sound stepped
    omega

/-- A run that was begun can be gone on with until the runner returns. -/
theorem exists_completion (named : ∀ target ∈ options.targets, target.host ≠ "")
    (positive : 0 < options.threads) {state : RunnerState}
    (sound : Sound (scanProtocol config options) options.targets options.threads state) :
    ∃ more last, Runs.run (runnerStep config options) state more = some last ∧ Finished last := by
  have progress : ∀ state,
      Sound (scanProtocol config options) options.targets options.threads state →
      0 < stepsLeft config options state →
      ∃ event after, runnerStep config options state event = some after := by
    intro state sound left
    apply enabled_of_sound positive sound
    rw [finished_iff_stepsLeft named positive sound]
    omega
  obtain ⟨more, last, ran, ends, done⟩ := Runs.exists_completion _
    (fun _ _ _ sound stepped => sound.step (transition_of_runnerStep stepped))
    (stepsLeft config options) (fun _ _ _ => stepsLeft_of_runnerStep) progress sound
  exact ⟨more, last, ran, (finished_iff_stepsLeft named positive ends).mpr done⟩

/-- Whatever the schedule is, the runner returns with a certain step and not before, and every run
can be completed. -/
theorem runner_terminates (named : ∀ target ∈ options.targets, target.host ≠ "")
    (threads : 0 < options.numThreads) (nonempty : options.targets ≠ [])
    {events : List RunnerEvent} {state : RunnerState}
    (result : Runs.run (runnerStep config options) (startRunner options) events = some state) :
    events.length ≤ options.steps ∧ (Finished state ↔ events.length = options.steps) ∧
      ∃ more last,
        Runs.run (runnerStep config options) (startRunner options) (events ++ more) = some last ∧
        Finished last := by
  have positive := (threads_pos_iff options).mpr ⟨threads, nonempty⟩
  have counted := Runs.measure_of_run
    (fun state => Sound (scanProtocol config options) options.targets options.threads state)
    (fun _ _ _ sound stepped => sound.step (transition_of_runnerStep stepped))
    (stepsLeft config options) (fun _ _ _ => stepsLeft_of_runnerStep)
    (sound_startRunner config options) result
  rw [stepsLeft_startRunner named] at counted
  have sound := sound_of_run result
  refine ⟨by omega, ?_, ?_⟩
  · rw [finished_iff_stepsLeft named positive sound]
    omega
  · obtain ⟨more, last, ran, finished⟩ := exists_completion named positive sound
    refine ⟨more, last, ?_, finished⟩
    rw [Runs.run_append, result, Option.bind_some, ran]

/-- Two threads and two targets: sixteen steps and the start of the collection. -/
theorem runner_terminates_two_targets :
    overtaking.length ≤ twoTargets.steps ∧ twoTargets.steps = 17 ∧
      ∃ state, Runs.run (runnerStep ⟨∅, []⟩ twoTargets) (startRunner twoTargets) overtaking =
        some state ∧ (Finished state ↔ overtaking.length = twoTargets.steps) := by
  have named : ∀ target ∈ twoTargets.targets, target.host ≠ "" := by decide
  have result : Runs.run (runnerStep ⟨∅, []⟩ twoTargets) (startRunner twoTargets) overtaking =
      some _ := rfl
  obtain ⟨bounded, finished, -⟩ := runner_terminates named (by decide) (by decide) result
  exact ⟨bounded, rfl, _, result, finished⟩

end PqcUtils.Scan

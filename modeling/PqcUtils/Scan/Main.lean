import PqcUtils.Scan.Report.Order
import PqcUtils.Scan.Runner.QuitMarkers
import PqcUtils.Scan.Runner.Steady

/-!
# Scans and reports

`main` reads the targets of a scan, hands them to `scan_runner` and writes the results
to a file. From such files it makes a report. Between the targets and the report
nothing is lost or made up, and a schedule does not change the report, unless a host
has several ports.
-/

namespace PqcUtils.Scan

open WorkerPool

/-! ## Commands -/

inductive Command where
  | tlsScan (args : TargetArgs) (numThreads : Nat) (onlyHybridAlgos testNonpqcAlgos : Bool)
  | sshScan (args : TargetArgs) (numThreads : Nat)

def Command.args : Command → TargetArgs
  | .tlsScan args _ _ _ => args
  | .sshScan args _ => args

def Command.options : Command → Except String ScanOptions
  | .tlsScan args numThreads onlyHybridAlgos testNonpqcAlgos =>
    (getTargets args (some 443)).map fun targets =>
      ⟨numThreads, targets, .tls, onlyHybridAlgos, testNonpqcAlgos⟩
  | .sshScan args numThreads =>
    (getTargets args (some 22)).map fun targets => ⟨numThreads, targets, .ssh, false, false⟩

theorem named_of_options {command : Command} {options : ScanOptions}
    (accepted : command.options = .ok options)
    (entries : ∀ entry ∈ Scan.entries command.args, ¬Hostless entry) :
    ∀ target ∈ options.targets, target.host ≠ "" := by
  have read {defaultPort : UInt16} {make : List Target → ScanOptions}
      (targets : ∀ list, (make list).targets = list)
      (made : (getTargets command.args (some defaultPort)).map make = .ok options) :
      ∀ target ∈ options.targets, target.host ≠ "" := by
    cases obtained : getTargets command.args (some defaultPort) with
    | error error => simp [obtained, Except.map] at made
    | ok list =>
      rw [obtained, Except.map, Except.ok.injEq] at made
      rw [← made, targets, named_iff_of_forall₂ (forall₂_of_getTargets obtained)]
      exact entries
  cases command with
  | tlsScan => exact read (fun _ => rfl) accepted
  | sshScan => exact read (fun _ => rfl) accepted

/-- A command, the schedule of its scan, and the times at its start and end. -/
structure ScanRun where
  command : Command
  schedule : List RunnerEvent
  startTime : String
  endTime : String

/-- What `scan_runner` returns, if the schedule goes to its end. -/
def ScanRun.scan (config : Config) (run : ScanRun) : Option Scan :=
  match run.command.options with
  | .error _ => none
  | .ok options =>
    match Runs.run (runnerStep config options) (startRunner options) run.schedule with
    | some ⟨_, _, _, .returned results⟩ =>
      some ⟨results, run.startTime, run.endTime, crateVersion, options.scanType⟩
    | _ => none

theorem ScanRun.scan_eq_some_iff {config : Config} {run : ScanRun} {scan : Scan} :
    run.scan config = some scan ↔ ∃ options state results,
      run.command.options = .ok options ∧
      Runs.run (runnerStep config options) (startRunner options) run.schedule = some state ∧
      state.collector = .returned results ∧
      scan = ⟨results, run.startTime, run.endTime, crateVersion, options.scanType⟩ := by
  rw [ScanRun.scan]
  constructor
  · intro made
    split at made
    · cases made
    · next options accepted =>
      split at made
      · next results ran =>
        cases made
        exact ⟨options, _, results, accepted, ran, rfl, rfl⟩
      · cases made
  · rintro ⟨options, ⟨_, _, _, collector⟩, results, accepted, ran, returned, rfl⟩
    cases returned
    simp only [accepted, ran]

/-! ## From targets to the report -/

/-- What a report shows of a target. -/
def shownTarget (scanType : ScanType) (target : Target) : String × String × String :=
  (match scanType with
    | .ssh => "ssh"
    | .tls => "tls",
    target.host, toString target.port.toNat)

def Entry.target (entry : Entry) : String × String × String :=
  (entry.scanType, entry.host, entry.port)

def Command.shownTargets (command : Command) : List (String × String × String) :=
  match command.options with
  | .error _ => []
  | .ok options => options.targets.map (shownTarget options.scanType)

theorem scanType_of_scanTarget {config : Config} {options : ScanOptions} {target : Target}
    {network : Network} {result : ScanResult}
    (scanned : scanTarget config options target network = some result) :
    result.scanType = some options.scanType := by
  unfold scanTarget at scanned
  split at scanned
  · next tls =>
    cases scanned
    rw [tls]
    have found (groups : List (String × TlsGroup)) (findings : TlsFindings) :
        (testGroups target network.tls groups findings).scanType = some .tls := by
      induction groups generalizing findings with
      | nil => rfl
      | cons entry groups ih =>
        obtain ⟨groupName, group⟩ := entry
        simp only [testGroups]
        cases network.tls groupName group with
        | error error => rfl
        | ok attempted =>
          obtain ⟨addr, _ | _⟩ := attempted <;> exact ih _
    exact found _ _
  · next ssh =>
    rw [ssh]
    unfold sshScanTarget at scanned
    repeat' split at scanned
    all_goals cases scanned <;> rfl

theorem entry_of_scanTarget {config : Config} {options : ScanOptions} {target : Target}
    {network : Network} {result : ScanResult}
    (scanned : scanTarget config options target network = some result) :
    result.entry.map Entry.target = some (shownTarget options.scanType target) := by
  have about := targetspec_of_scanTarget scanned
  have typed := scanType_of_scanTarget scanned
  cases result with
  | ssh | tls =>
    cases about
    simp only [ScanResult.scanType, Option.some.injEq] at typed
    rw [← typed]
    rfl
  | done => cases about

theorem ScanRun.results {config : Config} {run : ScanRun} {scan : Scan}
    (made : run.scan config = some scan)
    (entries : ∀ entry ∈ Scan.entries run.command.args, ¬Hostless entry) :
    scan.Usable ∧ (scan.results.map fun result => result.entry.map Entry.target).Perm
      (run.command.shownTargets.map some) := by
  obtain ⟨options, state, results, accepted, ran, returned, rfl⟩ := scan_eq_some_iff.mp made
  have sound := sound_of_run ran
  have plain : ∀ target ∈ options.targets, (scanProtocol config options).quits target = false :=
    fun target membership => decide_eq_false (named_of_options accepted entries target membership)
  have complete : (results.map ScanResult.targetspec).Perm (options.targets.map some) :=
    sound.collected_perm plain returned
  have genuine := sound.faithful.collected
  rw [returned] at genuine
  refine ⟨⟨rfl, fun membership => (genuine _ membership).ne_done rfl⟩, ?_⟩
  have shown : (results.map fun result => result.entry.map Entry.target) =
      (results.map ScanResult.targetspec).map (Option.map (shownTarget options.scanType)) := by
    rw [List.map_map]
    refine List.map_congr_left fun result membership => ?_
    obtain ⟨target, network, scanned⟩ := genuine result membership
    simp [entry_of_scanTarget scanned, targetspec_of_scanTarget scanned]
  rw [shown, Command.shownTargets, accepted]
  simpa [Function.comp_def] using complete.map (Option.map (shownTarget options.scanType))

/-- How scans are written to files and read from them. -/
structure ScanFormat where
  toWriter : Scan → Bytes
  fromReader : Bytes → Option Scan

/-- What `create_report` finds in a file. -/
def inputFile (format : ScanFormat) : Except String Bytes → InputFile
  | .error error => .unreadable error
  | .ok content =>
    match format.fromReader content with
    | some scan => .parsed scan
    | none => .unparsable

theorem ofHost_eq_of_perm {results results' : List ScanResult} (perm : results.Perm results')
    (alike : ∀ result ∈ results, ∀ other ∈ results, result.host = other.host → result = other)
    (host : String) : ofHost results host = ofHost results' host := by
  have grouped : (ofHost results host).Perm (ofHost results' host) := perm.filter _
  cases first : ofHost results host with
  | nil =>
    rw [first] at grouped
    exact (List.nil_perm.mp grouped).symm
  | cons result others =>
    have same : ∀ other ∈ ofHost results host, other = result := by
      intro other membership
      have here : result ∈ ofHost results host := by simp [first]
      simp only [ofHost, List.mem_filter, decide_eq_true_eq] at membership here
      exact alike other membership.1 result here.1 (membership.2.trans here.2.symm)
    have same' : ∀ other ∈ ofHost results' host, other = result :=
      fun other membership => same other (grouped.mem_iff.mpr membership)
    rw [← first, List.eq_replicate_length.mpr same, List.eq_replicate_length.mpr same',
      grouped.length_eq]

/-- If no host is scanned at two ports, and the network is steady, then neither the schedule nor the
number of threads is seen in a report. -/
theorem report_of_schedules {config : Config} {options : ScanOptions} {answers : Target → Network}
    (numThreads : Nat) (named : ∀ target ∈ options.targets, target.host ≠ "")
    (apart : ∀ target ∈ options.targets, ∀ other ∈ options.targets,
      target.host = other.host → target = other)
    {turns turns' : List Turn} {state state' : RunnerState} {results results' : List ScanResult}
    (ran : Runs.run (turnStep config options answers) (startRunner options) turns = some state)
    (returned : state.collector = .returned results)
    (ran' : Runs.run (turnStep config { options with numThreads } answers)
      (startRunner { options with numThreads }) turns' = some state')
    (returned' : state'.collector = .returned results')
    {before after : List (String × Scan)} (usableBefore : ∀ file ∈ before, file.2.Usable)
    (usableAfter : ∀ file ∈ after, file.2.Usable) (inputFile startTime endTime : String) :
    createReport (parsedFiles (before ++
        (inputFile, ⟨results, startTime, endTime, crateVersion, options.scanType⟩) :: after)) =
      createReport (parsedFiles (before ++
        (inputFile, ⟨results', startTime, endTime, crateVersion, options.scanType⟩) :: after)) := by
  have all := results_of_turns named ran returned
  have all' :=
    @results_of_turns config { options with numThreads } answers named _ _ ran' _ returned'
  have perm : results.Perm results' := by
    rw [← List.map_perm_map_iff (Option.some_injective _)]
    exact all.trans all'.symm
  have scanned {result : ScanResult} (membership : result ∈ results) :
      ∃ target ∈ options.targets, scanTarget config options target (answers target) =
        some result := by
    have among := all.mem_iff.mp (List.mem_map_of_mem membership)
    simpa using among
  have alike : ∀ result ∈ results, ∀ other ∈ results, result.host = other.host →
      result = other := by
    intro result membership other membership' same
    obtain ⟨target, among, found⟩ := scanned membership
    obtain ⟨target', among', found'⟩ := scanned membership'
    rw [ScanResult.host, ScanResult.host, targetspec_of_scanTarget found,
      targetspec_of_scanTarget found', Option.map_some, Option.map_some, Option.some.injEq] at same
    rw [apart target among target' among' same, found', Option.some.injEq] at found
    exact found.symm
  have genuine : .done ∉ results := by
    intro membership
    obtain ⟨target, -, found⟩ := scanned membership
    cases targetspec_of_scanTarget found
  have genuine' : .done ∉ results' := fun membership => genuine (perm.mem_iff.mpr membership)
  have usable {list : List ScanResult} (genuine : .done ∉ list) : ∀ file ∈ before ++
      (inputFile, ⟨list, startTime, endTime, crateVersion, options.scanType⟩) :: after,
      file.2.Usable :=
    List.forall_mem_append.mpr ⟨usableBefore, List.forall_mem_cons.mpr
      ⟨⟨rfl, genuine⟩, usableAfter⟩⟩
  refine SameContent.createReport ⟨by simp [Scan.window], fun scanType host => ?_⟩ (usable genuine)
    (usable genuine')
  have here : ofHost (ofType scanType results) host = ofHost (ofType scanType results') host :=
    ofHost_eq_of_perm (perm.filter _) (fun result membership other membership' =>
      alike result (List.mem_filter.mp membership).1 other (List.mem_filter.mp membership').1) host
  simp only [ofHost, ofType] at here
  simp [allResults, ofType, ofHost, here]

def twoServers : ScanOptions := ⟨2, [⟨"a.test", 22⟩, ⟨"b.test", 22⟩], .ssh, false, false⟩

/-- The second thread is done with its host before the first one. -/
def secondFirst : List Turn :=
  [.main, .main, .main, .worker 0] ++ List.replicate 5 (.worker 1) ++ [.main, .main] ++
    List.replicate 4 (.worker 0) ++ [.main, .main]

def alone : List Turn :=
  [.main, .main] ++ List.replicate 8 (.worker 0) ++ List.replicate 3 .main

theorem report_of_two_schedules :
    ∃ results results', results ≠ results' ∧
      createReport (parsedFiles [("ssh.json", ⟨results, "12:00", "12:01", crateVersion, .ssh⟩)]) =
        createReport
          (parsedFiles [("ssh.json", ⟨results', "12:00", "12:01", crateVersion, .ssh⟩)]) := by
  have ran : Runs.run (turnStep ⟨∅, []⟩ twoServers fun _ => unreachable) (startRunner twoServers)
      secondFirst = some _ := rfl
  have ran' : Runs.run (turnStep ⟨∅, []⟩ { twoServers with numThreads := 1 } fun _ => unreachable)
      (startRunner { twoServers with numThreads := 1 }) alone = some _ := rfl
  refine ⟨_, _, ?_, report_of_schedules 1 (by decide) (by decide) ran rfl ran' rfl
    (List.forall_mem_nil _) (List.forall_mem_nil _) "ssh.json" "12:00" "12:01"⟩
  decide

end PqcUtils.Scan

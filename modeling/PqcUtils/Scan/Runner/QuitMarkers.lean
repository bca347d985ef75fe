import PqcUtils.Scan.Runner.Schedules

/-!
# Targets and quit markers

A thread quits when it receives a target without a host. The runner queues one such
target for each thread, and the parser of targets makes one from an entry in which
nothing stands before the port.
-/

namespace PqcUtils.Scan

open Text WorkerPool

/-! ## What the parser accepts -/

/-- Nothing stands before the port: the entry is empty, or its only colon is its first character. -/
def Hostless (entry : String) : Prop :=
  entry = "" ∨ ∃ port, entry.toList = ':' :: port ∧ ':' ∉ port

def entriesOf (lines : List Bytes) : List String :=
  (lines.filterMap fromUtf8).filter fun line => ¬(line = "" ∨ line.toList.head? = some '#')

def entries (args : TargetArgs) : List String :=
  match args.target with
  | some target => [target]
  | none =>
    match args.targetList with
    | some (.ok content) => entriesOf (readLines [] content)
    | _ => []

theorem host_eq_empty_iff {entry : String} {defaultPort : Option UInt16} {target : Target}
    (parsed : parseSingleTarget entry defaultPort = .ok target) :
    target.host = "" ↔ Hostless entry := by
  cases split : rsplitOnce ':' entry with
  | none =>
    have noColon := not_mem_of_rsplitOnce split
    have bare : ¬∃ port, entry.toList = ':' :: port ∧ ':' ∉ port := by
      rintro ⟨port, same, -⟩
      simp [same] at noColon
    cases defaultPort with
    | none => simp [parseSingleTarget, split] at parsed
    | some port =>
      simp only [parseSingleTarget, split, Except.ok.injEq] at parsed
      rw [← parsed, Hostless, or_iff_left bare]
  | some parts =>
    obtain ⟨host, port⟩ := parts
    obtain ⟨text, last⟩ := split_of_rsplitOnce split
    have nonempty : entry ≠ "" := by
      rintro rfl
      simp at text
    cases number : parseUnsigned 16 port with
    | none => simp [parseSingleTarget, split, number] at parsed
    | some value =>
      simp only [parseSingleTarget, split, number, Except.ok.injEq] at parsed
      rw [← parsed, Hostless, or_iff_right nonempty, text]
      constructor
      · rintro rfl
        exact ⟨port.toList, rfl, last⟩
      · rintro ⟨rest, same, noColon⟩
        cases before : host.toList with
        | nil => exact String.toList_eq_nil_iff.mp before
        | cons c host =>
          rw [before, List.cons_append, List.cons.injEq] at same
          simp [← same.2] at noColon

theorem forall₂_of_parseLines {defaultPort : Option UInt16} {lineNo : Nat} {lines : List Bytes}
    {targets : List Target} (parsed : parseLines defaultPort lineNo lines = .ok targets) :
    (entriesOf lines).Forall₂ (fun entry target => parseSingleTarget entry defaultPort = .ok target)
      targets := by
  induction lines generalizing lineNo targets with
  | nil =>
    cases parsed
    exact .nil
  | cons bytes lines ih =>
    simp only [parseLines] at parsed
    cases decoded : fromUtf8 bytes with
    | none => simp [decoded] at parsed
    | some line =>
      simp only [decoded] at parsed
      rw [entriesOf, List.filterMap_cons_some decoded, List.filter_cons]
      by_cases skipped : line = "" ∨ line.toList.head? = some '#'
      · rw [if_pos skipped] at parsed
        rw [if_neg (by simp [skipped])]
        exact ih parsed
      · rw [if_neg skipped] at parsed
        rw [if_pos (by simpa using skipped)]
        cases single : parseSingleTarget line defaultPort with
        | error error => simp [single] at parsed
        | ok target =>
          simp only [single] at parsed
          cases others : parseLines defaultPort (lineNo + 1) lines with
          | error error => simp [others, Except.map] at parsed
          | ok later =>
            simp only [others, Except.map, Except.ok.injEq] at parsed
            rw [← parsed]
            exact .cons single (ih others)

theorem forall₂_of_getTargets {args : TargetArgs} {defaultPort : Option UInt16}
    {targets : List Target} (accepted : getTargets args defaultPort = .ok targets) :
    (entries args).Forall₂ (fun entry target => parseSingleTarget entry defaultPort = .ok target)
      targets := by
  obtain ⟨_ | entry, targetList⟩ := args
  · obtain _ | _ | content := targetList
    · cases accepted
    · cases accepted
    · exact forall₂_of_parseLines accepted
  · simp only [getTargets] at accepted
    cases parsed : parseSingleTarget entry defaultPort with
    | error error => simp [parsed, Except.map] at accepted
    | ok target =>
      simp only [parsed, Except.map, Except.ok.injEq] at accepted
      rw [← accepted]
      exact .cons parsed .nil

theorem named_iff_of_forall₂ {defaultPort : Option UInt16} {entries : List String}
    {targets : List Target} (parsed : entries.Forall₂
      (fun entry target => parseSingleTarget entry defaultPort = .ok target) targets) :
    (∀ target ∈ targets, target.host ≠ "") ↔ ∀ entry ∈ entries, ¬Hostless entry := by
  induction parsed with
  | nil => simp
  | cons single _ ih => simp [host_eq_empty_iff single, ih]

/-! ## What the threads do -/

/-- A thread leaves its loop only when nothing but markers is left in the queue, and no target is
dropped. -/
structure QuitsOnMarkers (config : Config) (options : ScanOptions) : Prop where
  leaves : ∀ events before no network after,
    Runs.run (runnerStep config options) (startRunner options) events = some before →
    workerStep config options before no network = some after →
    before.workers[no]? = some .receiving →
    after.workers[no]? = some .quitting ∨ after.workers[no]? = some .exited →
    ∃ left < options.threads, before.queue = List.replicate (left + 1) ⟨"", 0⟩
  complete : ∀ events state results,
    Runs.run (runnerStep config options) (startRunner options) events = some state →
    state.collector = .returned results →
    (results.map ScanResult.targetspec).Perm (options.targets.map some)

theorem quitsOnMarkers_of_named {config : Config} {options : ScanOptions}
    (named : ∀ target ∈ options.targets, target.host ≠ "") : QuitsOnMarkers config options := by
  have plain : ∀ target ∈ options.targets,
      (scanProtocol config options).quits target = false :=
    fun target membership => decide_eq_false (named target membership)
  constructor
  · intro events before no network after result stepped receiving leaves
    have sound := sound_of_run result
    obtain ⟨queue, workers, channel, collector⟩ := before
    have inside : no < workers.length := (List.getElem?_eq_some_iff.mp receiving).1
    obtain ⟨left, right, split, -⟩ := exists_split_of_getElem? receiving
    subst split
    simp only [workerStep, receiving] at stepped
    cases queue with
    | nil =>
      simp only [Option.ite_none_right_eq_some] at stepped
      have stopped := targetSenders_eq_zero_iff.mp stepped.1
      rw [sound.counted.running_of_receiving] at stopped
      cases stopped
    | cons target queue =>
      by_cases empty : target.host = ""
      · exact sound.queue_of_quits plain rfl (decide_eq_true empty)
      · simp only [empty, if_false, Option.some.injEq] at stepped
        rw [← stepped, List.getElem?_set_self inside] at leaves
        simp at leaves
  · intro events state results result returned
    exact (sound_of_run result).collected_perm plain returned

/-- Accepted targets all have a host, and the runner tells them from its markers, exactly if no
entry is without a host. -/
theorem targets_named_iff {args : TargetArgs} {defaultPort : Option UInt16} {targets : List Target}
    (accepted : getTargets args defaultPort = .ok targets) :
    ((∀ target ∈ targets, target.host ≠ "") ∧
        ∀ config options, options.targets = targets → QuitsOnMarkers config options) ↔
      ∀ entry ∈ entries args, ¬Hostless entry := by
  rw [← named_iff_of_forall₂ (forall₂_of_getTargets accepted)]
  refine ⟨fun both => both.1, fun named => ⟨named, ?_⟩⟩
  rintro config options rfl
  exact quitsOnMarkers_of_named named

def twoLines : TargetArgs := ⟨none, some (.ok (toUtf8 "localhost:22\n[::1]:2222\n"))⟩

theorem targets_named_twoLines :
    (∀ target ∈ ([⟨"localhost", 22⟩, ⟨"[::1]", 2222⟩] : List Target), target.host ≠ "") ∧
      ∀ config options, options.targets = [⟨"localhost", 22⟩, ⟨"[::1]", 2222⟩] →
        QuitsOnMarkers config options := by
  have accepted : getTargets twoLines none = .ok [⟨"localhost", 22⟩, ⟨"[::1]", 2222⟩] := by
    decide +kernel
  have listed : entries twoLines = ["localhost:22", "[::1]:2222"] := by decide +kernel
  refine (targets_named_iff accepted).mpr ?_
  simp [listed, Hostless]

def hostlessLine : TargetArgs := ⟨none, some (.ok (toUtf8 ":22\nlocalhost:22\n"))⟩

/-- The only thread takes the first target for its marker, and the second one is never scanned. -/
theorem target_behind_dropped :
    getTargets hostlessLine (some 22) = .ok [⟨"", 22⟩, ⟨"localhost", 22⟩] ∧
      ∃ state, Runs.run (runnerStep ⟨∅, []⟩ ⟨1, [⟨"", 22⟩, ⟨"localhost", 22⟩], .ssh, false, false⟩)
          (startRunner ⟨1, [⟨"", 22⟩, ⟨"localhost", 22⟩], .ssh, false, false⟩)
          [.main, .main, .worker 0 unreachable, .worker 0 unreachable, .main] = some state ∧
        state.collector = .returned [] ∧ state.queue = [⟨"localhost", 22⟩, ⟨"", 0⟩] := by
  refine ⟨by decide +kernel, _, rfl, rfl, rfl⟩

end PqcUtils.Scan

import PqcUtils.Scan.Report

/-!
# What the report gathers

After every prefix of the input the variables of a protocol are functions of the
results that belong to it. So the report loses nothing and makes nothing up.
-/

namespace PqcUtils.Scan

/-! ## One protocol -/

def ScanResult.scanType : ScanResult → Option ScanType
  | .ssh .. => some .ssh
  | .tls .. => some .tls
  | .done => none

def ScanResult.host (result : ScanResult) : Option String := result.targetspec.map Target.host

def ofHost (results : List ScanResult) (host : String) : List ScanResult :=
  results.filter fun result => result.host = some host

/-- The variables of a protocol, after these results. -/
structure Tally.Counts (tally : Tally) (results : List ScanResult) : Prop where
  sorted : ∀ host, host ∈ tally.sortedHosts ↔ ofHost results host ≠ []
  keys : ∀ host, host ∈ tally.results ↔ ofHost results host ≠ []
  lists : ∀ host list, tally.results.lookup host = some list → list = ofHost results host
  success : tally.successCount = results.countP fun result => result.error.isNone
  pqc : tally.pqcSupportedCount = results.countP ScanResult.pqcSupported
  total : tally.totalCount = results.length

theorem Tally.counts_empty : Tally.empty.Counts [] :=
  ⟨by simp [Tally.empty, ofHost], by simp [Tally.empty, ofHost, Finmap.notMem_empty],
    by simp [Tally.empty], rfl, rfl, rfl⟩

theorem ofHost_append_self {results : List ScanResult} {result : ScanResult}
    {targetspec : Target} (filed : result.targetspec = some targetspec) :
    ofHost (results ++ [result]) targetspec.host = ofHost results targetspec.host ++ [result] := by
  simp [ofHost, ScanResult.host, filed]

theorem ofHost_append_of_ne {results : List ScanResult} {result : ScanResult} {host : String}
    {targetspec : Target} (filed : result.targetspec = some targetspec)
    (other : host ≠ targetspec.host) :
    ofHost (results ++ [result]) host = ofHost results host := by
  simp [ofHost, ScanResult.host, filed, other.symm]

theorem Tally.Counts.add {tally : Tally} {results : List ScanResult} (counts : tally.Counts results)
    {result : ScanResult} {targetspec : Target} (filed : result.targetspec = some targetspec) :
    (tally.add targetspec result).Counts (results ++ [result]) := by
  have hosts (host : String) : ofHost (results ++ [result]) host ≠ [] ↔
      host = targetspec.host ∨ ofHost results host ≠ [] := by
    by_cases same : host = targetspec.host
    · simp [same, ofHost_append_self filed]
    · simp [same, ofHost_append_of_ne filed same]
  refine ⟨fun host => ?_, fun host => ?_, fun host list found => ?_, ?_, ?_, ?_⟩
  · rw [hosts, ← counts.sorted]
    exact Finset.mem_insert
  · rw [hosts, ← counts.keys]
    exact HashMap.mem_update
  · rw [Tally.add] at found
    by_cases same : host = targetspec.host
    · subst same
      rw [HashMap.lookup_update_self, Option.some.injEq] at found
      rw [← found, ofHost_append_self filed]
      cases before : tally.results.lookup targetspec.host with
      | none =>
        have absent : ¬ofHost results targetspec.host ≠ [] := by
          rw [← counts.keys]
          exact Finmap.lookup_eq_none.mp before
        rw [not_not.mp absent]
        rfl
      | some earlier => rw [Option.getD_some, counts.lists _ _ before]
    · rw [HashMap.lookup_update_of_ne _ _ _ same] at found
      rw [ofHost_append_of_ne filed same]
      exact counts.lists host list found
  · rw [List.countP_append, ← counts.success, List.countP_singleton]
    rfl
  · rw [List.countP_append, ← counts.pqc, List.countP_singleton]
    rfl
  · rw [List.length_append, ← counts.total]
    rfl

/-! ## All results -/

def ofType (scanType : ScanType) (results : List ScanResult) : List ScanResult :=
  results.filter fun result => result.scanType = some scanType

structure Gathered.Counts (gathered : Gathered) (results : List ScanResult) : Prop where
  ssh : gathered.ssh.Counts (ofType .ssh results)
  tls : gathered.tls.Counts (ofType .tls results)

theorem Gathered.Counts.addResult {before after : Gathered} {results : List ScanResult}
    (counts : before.Counts results) {result : ScanResult}
    (added : addResult before result = some after) : after.Counts (results ++ [result]) := by
  cases result with
  | ssh targetspec =>
    cases added
    constructor
    · simpa [ofType, ScanResult.scanType] using counts.ssh.add rfl
    · simpa [ofType, ScanResult.scanType] using counts.tls
  | tls targetspec =>
    cases added
    constructor
    · simpa [ofType, ScanResult.scanType] using counts.ssh
    · simpa [ofType, ScanResult.scanType] using counts.tls.add rfl
  | done => cases added

theorem Gathered.Counts.run {before after : Gathered} {past results : List ScanResult}
    (counts : before.Counts past) (added : Runs.run Scan.addResult before results = some after) :
    after.Counts (past ++ results) :=
  Runs.history_of_run (fun past (gathered : Gathered) => gathered.Counts past)
    (fun _ _ _ _ counts added => counts.addResult added) past counts added

/-! ## The report -/

set_option linter.dupNamespace false in
/-- A scan of the current version that holds nothing but results. -/
structure Scan.Usable (scan : Scan) : Prop where
  current : scan.version = crateVersion
  genuine : .done ∉ scan.results

def parsedFiles (files : List (String × Scan)) : List (String × InputFile) :=
  files.map fun file => (file.1, .parsed file.2)

def allResults (files : List (String × Scan)) : List ScanResult :=
  files.flatMap fun file => file.2.results

theorem exists_run_addResult {results : List ScanResult} (genuine : .done ∉ results)
    (gathered : Gathered) : ∃ after, Runs.run addResult gathered results = some after := by
  apply Runs.exists_run_of_mem
  intro result membership before
  cases result with
  | ssh => exact ⟨_, rfl⟩
  | tls => exact ⟨_, rfl⟩
  | done => exact absurd membership genuine

theorem Gathered.Counts.exists_addFiles {files : List (String × Scan)}
    (usable : ∀ file ∈ files, file.2.Usable) {before : Gathered} {past : List ScanResult}
    (counts : before.Counts past) :
    ∃ after, addFiles before (parsedFiles files) = .ok after ∧
      after.Counts (past ++ allResults files) := by
  induction files generalizing before past with
  | nil => exact ⟨before, rfl, by simpa [allResults] using counts⟩
  | cons file files ih =>
    obtain ⟨inputFile, scan⟩ := file
    have current : scan.version = crateVersion := (usable (inputFile, scan) (by simp)).current
    have genuine : .done ∉ scan.results := (usable (inputFile, scan) (by simp)).genuine
    let window : ScanWindow := ⟨scan.startTime, scan.endTime, scan.scanType⟩
    let opened : Gathered := { before with scanWindows := before.scanWindows ++ [window] }
    have countedBefore : opened.Counts past := ⟨counts.ssh, counts.tls⟩
    obtain ⟨next, added⟩ := exists_run_addResult genuine opened
    have counted : next.Counts (past ++ scan.results) := countedBefore.run added
    have fileAdded : addFile before inputFile (.parsed scan) = .ok next := by
      simp only [addFile, if_neg (not_not.mpr current)]
      rw [show Runs.run Scan.addResult _ scan.results = some next from added]
    obtain ⟨after, addedAll, countedAll⟩ :=
      ih (fun file membership => usable file (by simp [membership])) counted
    refine ⟨after, ?_, by simpa [allResults] using countedAll⟩
    change (addFile before inputFile (.parsed scan) >>= fun gathered =>
      addFiles gathered (parsedFiles files)) = _
    rw [fileAdded, Outcome.ok_bind, addedAll]

/-- The fields of a protocol, in terms of its results. -/
structure ProtocolResults.Aggregates (part : ProtocolResults) (results : List ScanResult) :
    Prop where
  sorted : (inOrder part.sortedHosts).Pairwise (· < ·)
  hosts : ∀ host, host ∈ inOrder part.sortedHosts ↔ host ∈ part.results
  keys : ∀ host, host ∈ part.results ↔ ∃ result ∈ results, result.host = some host
  lists : ∀ host list, part.results.lookup host = some list → list = ofHost results host
  total : part.totalCount = results.length
  success : part.successCount = results.countP fun result => result.error.isNone
  sum : part.successCount + part.failCount = part.totalCount
  pqc : part.pqcSupportedCount = results.countP ScanResult.pqcSupported

theorem ofHost_ne_nil_iff {results : List ScanResult} {host : String} :
    ofHost results host ≠ [] ↔ ∃ result ∈ results, result.host = some host := by
  simp [ofHost]

theorem Tally.Counts.checkedSub {tally : Tally} {results : List ScanResult}
    (counts : tally.Counts results) :
    ∃ failCount, checkedSub tally.totalCount tally.successCount = .ok failCount ∧
      tally.successCount + failCount = tally.totalCount := by
  have bound : tally.successCount ≤ tally.totalCount := by
    rw [counts.success, counts.total]
    exact List.countP_le_length
  exact ⟨_, if_pos bound, by omega⟩

theorem Tally.Counts.aggregates {tally : Tally} {results : List ScanResult}
    (counts : tally.Counts results) {failCount : Nat}
    (sum : tally.successCount + failCount = tally.totalCount) :
    (ProtocolResults.mk tally.results tally.sortedHosts tally.successCount failCount
      tally.pqcSupportedCount tally.totalCount).Aggregates results where
  sorted := (Finset.sortedLT_sort _).pairwise
  hosts host := by rw [inOrder, Finset.mem_sort, counts.sorted, counts.keys]
  keys host := by rw [counts.keys, ofHost_ne_nil_iff]
  lists := counts.lists
  total := counts.total
  success := counts.success
  sum := sum
  pqc := counts.pqc

theorem exists_createReport {files : List (String × Scan)}
    (usable : ∀ file ∈ files, file.2.Usable) :
    ∃ report, createReport (parsedFiles files) = .ok report ∧
      ∀ scanType, (report.protocol scanType).Aggregates (ofType scanType (allResults files)) := by
  have start : Gathered.empty.Counts [] := ⟨Tally.counts_empty, Tally.counts_empty⟩
  obtain ⟨gathered, added, counts⟩ := start.exists_addFiles usable
  obtain ⟨tlsFailCount, tlsSub, tlsSum⟩ := counts.tls.checkedSub
  obtain ⟨sshFailCount, sshSub, sshSum⟩ := counts.ssh.checkedSub
  refine ⟨_, by rw [createReport, added, Outcome.ok_bind, tlsSub, Outcome.ok_bind, sshSub,
    Outcome.ok_bind, Outcome.pure_eq_ok], fun scanType => ?_⟩
  cases scanType with
  | ssh => exact counts.ssh.aggregates sshSum
  | tls => exact counts.tls.aggregates tlsSum

/-! ## Results of the scanners -/

/-- The result was returned by one of the two scanners. -/
inductive ScanResult.Scanned : ScanResult → Prop where
  | ssh {kexAlgos : HashMap String KexAlgo} {target : Target}
      {connected : Except String (String × Connection)} {result : ScanResult} :
      sshScanTarget kexAlgos target connected = some result → Scanned result
  | tls (groups : List (String × TlsGroup)) (target : Target)
      (hybridAlgosOnly scanNonpqcAlgos : Bool) (attempt : String → TlsGroup → GroupAttempt) :
      Scanned (tlsScanTarget groups target hybridAlgosOnly scanNonpqcAlgos attempt)

theorem sshScanTarget_unreached (kexAlgos : HashMap String KexAlgo) (target : Target)
    (error : String) : sshScanTarget kexAlgos target (.error error) =
      some (.ssh target none (some error) false none none) := rfl

theorem error_of_testGroups {target : Target} {attempt : String → TlsGroup → GroupAttempt}
    {groups : List (String × TlsGroup)} {findings : TlsFindings}
    (pqc : (testGroups target attempt groups findings).pqcSupported = true) :
    (testGroups target attempt groups findings).error = none := by
  induction groups generalizing findings with
  | nil => rfl
  | cons entry groups ih =>
    obtain ⟨groupName, group⟩ := entry
    simp only [testGroups] at pqc ⊢
    cases outcome : attempt groupName group with
    | error error => simp [outcome, ScanResult.pqcSupported] at pqc
    | ok attempted =>
      obtain ⟨addr, _ | _⟩ := attempted <;> simp only [outcome] at pqc ⊢ <;> exact ih pqc

theorem ScanResult.Scanned.error_eq_none {result : ScanResult} (scanned : result.Scanned)
    (pqc : result.pqcSupported = true) : result.error = none := by
  cases scanned with
  | ssh returned =>
    unfold sshScanTarget at returned
    repeat' split at returned
    all_goals cases returned <;> simp_all [ScanResult.error, ScanResult.pqcSupported]
  | tls => exact error_of_testGroups pqc

/-- Every report of current scans aggregates their results, and if the scanners made them, no more
of them support post-quantum algorithms than have succeeded. -/
theorem createReport_aggregates {files : List (String × Scan)}
    (usable : ∀ file ∈ files, file.2.Usable) :
    ∃ report, createReport (parsedFiles files) = .ok report ∧
      (∀ scanType, (report.protocol scanType).Aggregates
        (ofType scanType (allResults files))) ∧
      ((∀ result ∈ allResults files, result.Scanned) →
        ∀ scanType, (report.protocol scanType).pqcSupportedCount ≤
          (report.protocol scanType).successCount) := by
  obtain ⟨report, created, aggregates⟩ := exists_createReport usable
  refine ⟨report, created, aggregates, fun scanned scanType => ?_⟩
  rw [(aggregates scanType).pqc, (aggregates scanType).success]
  apply List.countP_mono_left
  intro result membership pqc
  have among : result ∈ allResults files := (List.mem_filter.mp membership).1
  rw [(scanned result among).error_eq_none pqc]
  rfl

def twoScans : List (String × Scan) :=
  [("ssh.json", ⟨[.ssh ⟨"localhost", 22⟩ none (some "\"localhost\" & <22>, lost") false none none],
      "12:00", "12:01", crateVersion, .ssh⟩),
    ("tls.json", ⟨[.tls ⟨"localhost", 443⟩ none none false (some []) (some []) (some [])], "12:02",
      "12:03", crateVersion, .tls⟩)]

theorem usable_twoScans : ∀ file ∈ twoScans, file.2.Usable := by
  simp only [twoScans, List.forall_mem_cons, List.not_mem_nil, false_implies, implies_true,
    and_true]
  exact ⟨⟨rfl, by simp⟩, ⟨rfl, by simp⟩⟩

theorem createReport_aggregates_twoScans :
    ∃ report, createReport (parsedFiles twoScans) = .ok report ∧
      (∀ scanType, (report.protocol scanType).Aggregates
        (ofType scanType (allResults twoScans))) ∧
      ∀ scanType, (report.protocol scanType).pqcSupportedCount ≤
        (report.protocol scanType).successCount := by
  have scanned : ∀ result ∈ allResults twoScans, result.Scanned := by
    simp only [allResults, twoScans, List.flatMap_cons, List.flatMap_nil, List.append_nil,
      List.cons_append, List.nil_append, List.forall_mem_cons, List.not_mem_nil, false_implies,
      implies_true, and_true]
    exact ⟨.ssh (sshScanTarget_unreached ∅ ⟨"localhost", 22⟩ _),
      .tls [] ⟨"localhost", 443⟩ false false fun _ _ => .error "Timeout"⟩
  obtain ⟨report, created, aggregates, bounded⟩ := createReport_aggregates usable_twoScans
  exact ⟨report, created, aggregates, bounded scanned⟩

end PqcUtils.Scan

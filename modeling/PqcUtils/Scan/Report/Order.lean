import PqcUtils.Scan.Report.Listing

/-!
# What a report depends on

A report is a function of the scan windows and, for each protocol and host, of the
results in the order in which they come. Two lists of input files with the same of
both give the same report, and no others do.
-/

namespace PqcUtils.Scan

/-! ## Windows -/

set_option linter.dupNamespace false in
def Scan.window (scan : Scan) : ScanWindow := ⟨scan.startTime, scan.endTime, scan.scanType⟩

theorem scanWindows_of_addResult {before after : Gathered} {result : ScanResult}
    (added : addResult before result = some after) : after.scanWindows = before.scanWindows := by
  cases result with
  | ssh | tls => cases added; rfl
  | done => cases added

theorem scanWindows_of_addFile {before after : Gathered} {inputFile : String} {scan : Scan}
    (added : addFile before inputFile (.parsed scan) = .ok after) :
    after.scanWindows = before.scanWindows ++ [scan.window] := by
  simp only [addFile] at added
  split at added
  · cases added
  · split at added
    · next ran =>
      cases added
      exact Runs.invariant_of_run
        (fun state : Gathered => state.scanWindows = before.scanWindows ++ [scan.window])
        (fun _ _ _ kept added => (scanWindows_of_addResult added).trans kept) rfl ran
    · cases added

theorem scanWindows_of_addFiles {files : List (String × Scan)} {before after : Gathered}
    (added : addFiles before (parsedFiles files) = .ok after) :
    after.scanWindows = before.scanWindows ++ files.map fun file => file.2.window := by
  induction files generalizing before with
  | nil =>
    cases added
    simp
  | cons file files ih =>
    obtain ⟨next, addedFile, addedOthers⟩ := Outcome.bind_eq_ok_iff.mp added
    rw [ih addedOthers, scanWindows_of_addFile addedFile, List.map_cons, List.append_assoc,
      List.singleton_append]

theorem scanWindows_of_createReport {files : List (String × Scan)} {report : ReportResults}
    (created : createReport (parsedFiles files) = .ok report) :
    report.scanWindows = files.map fun file => file.2.window := by
  obtain ⟨gathered, added, rest⟩ := Outcome.bind_eq_ok_iff.mp created
  obtain ⟨tlsFailCount, -, rest⟩ := Outcome.bind_eq_ok_iff.mp rest
  obtain ⟨sshFailCount, -, rest⟩ := Outcome.bind_eq_ok_iff.mp rest
  cases rest
  simpa [Gathered.empty] using scanWindows_of_addFiles added

/-! ## Results -/

theorem perm_of_ofHost {results results' : List ScanResult}
    (filed : ∀ result ∈ results, result.host ≠ none)
    (filed' : ∀ result ∈ results', result.host ≠ none)
    (same : ∀ host, ofHost results host = ofHost results' host) : results.Perm results' := by
  let hosts := ((results ++ results').filterMap ScanResult.host).dedup
  have covered {list : List ScanResult} (inside : list ⊆ results ++ results')
      (filed : ∀ result ∈ list, result.host ≠ none) :
      ∀ result ∈ list, ∃ host ∈ hosts, result.host = some host := by
    intro result membership
    obtain ⟨host, keyed⟩ := Option.ne_none_iff_exists'.mp (filed result membership)
    exact ⟨host, List.mem_dedup.mpr (List.mem_filterMap.mpr ⟨result, inside membership, keyed⟩),
      keyed⟩
  have grouped := perm_flatMap_filter ScanResult.host (List.nodup_dedup _)
    (covered (List.subset_append_left _ _) filed)
  have grouped' := perm_flatMap_filter ScanResult.host (List.nodup_dedup _)
    (covered (List.subset_append_right _ _) filed')
  refine grouped.symm.trans (.trans (.of_eq ?_) grouped')
  exact List.flatMap_congr fun host _ => same host

theorem host_ne_none_of_ofType {scanType : ScanType} {results : List ScanResult} :
    ∀ result ∈ ofType scanType results, result.host ≠ none := by
  intro result membership
  have typed : result.scanType = some scanType := by simpa using (List.mem_filter.mp membership).2
  cases result with
  | ssh | tls => simp [ScanResult.host, ScanResult.targetspec]
  | done => cases typed

theorem ProtocolResults.Aggregates.unique {part part' : ProtocolResults}
    {results results' : List ScanResult} (aggregates : part.Aggregates results)
    (aggregates' : part'.Aggregates results')
    (filed : ∀ result ∈ results, result.host ≠ none)
    (filed' : ∀ result ∈ results', result.host ≠ none)
    (same : ∀ host, ofHost results host = ofHost results' host) : part = part' := by
  have perm := perm_of_ofHost filed filed' same
  have keys (host : String) : host ∈ part.results ↔ host ∈ part'.results := by
    rw [aggregates.keys, aggregates'.keys, ← ofHost_ne_nil_iff, ← ofHost_ne_nil_iff, same]
  have hosts : part.sortedHosts = part'.sortedHosts := by
    ext host
    rw [← Finset.mem_sort (· ≤ ·), ← Finset.mem_sort (s := part'.sortedHosts) (· ≤ ·)]
    exact (aggregates.hosts host).trans ((keys host).trans (aggregates'.hosts host).symm)
  have lists : part.results = part'.results := by
    apply Finmap.ext_lookup
    intro host
    cases found : part.results.lookup host with
    | none =>
      rw [Finmap.lookup_eq_none, keys, ← Finmap.lookup_eq_none] at found
      exact found.symm
    | some list =>
      obtain ⟨list', found'⟩ := Finmap.mem_iff.mp
        ((keys host).mp (Finmap.mem_of_lookup_eq_some found))
      rw [found', aggregates.lists host list found, aggregates'.lists host list' found', same]
  have success : part.successCount = part'.successCount := by
    rw [aggregates.success, aggregates'.success, perm.countP_eq]
  have total : part.totalCount = part'.totalCount := by
    rw [aggregates.total, aggregates'.total, perm.length_eq]
  have pqc : part.pqcSupportedCount = part'.pqcSupportedCount := by
    rw [aggregates.pqc, aggregates'.pqc, perm.countP_eq]
  have fail : part.failCount = part'.failCount := by
    have sum := aggregates.sum
    have sum' := aggregates'.sum
    omega
  obtain ⟨⟩ := part
  obtain ⟨⟩ := part'
  simp_all

theorem ofHost_eq_getD {part : ProtocolResults} {results : List ScanResult}
    (aggregates : part.Aggregates results) (host : String) :
    ofHost results host = (part.results.lookup host).getD [] := by
  cases found : part.results.lookup host with
  | none =>
    rw [Finmap.lookup_eq_none, aggregates.keys, ← ofHost_ne_nil_iff, not_not] at found
    exact found
  | some list => exact (aggregates.lists host list found).symm

/-! ## Reports -/

theorem ReportResults.ext_protocol {report report' : ReportResults}
    (parts : ∀ scanType, report.protocol scanType = report'.protocol scanType)
    (windows : report.scanWindows = report'.scanWindows) : report = report' := by
  have ssh := parts .ssh
  have tls := parts .tls
  obtain ⟨⟩ := report
  obtain ⟨⟩ := report'
  simp only [ReportResults.protocol, ProtocolResults.mk.injEq] at ssh tls windows
  simp [ssh, tls, windows]

/-- The same windows, and the same results of each host in the same order. -/
structure SameContent (files files' : List (String × Scan)) : Prop where
  windows : (files.map fun file => file.2.window) = files'.map fun file => file.2.window
  hosts : ∀ scanType host, ofHost (ofType scanType (allResults files)) host =
    ofHost (ofType scanType (allResults files')) host

theorem SameContent.createReport {files files' : List (String × Scan)}
    (same : SameContent files files') (usable : ∀ file ∈ files, file.2.Usable)
    (usable' : ∀ file ∈ files', file.2.Usable) :
    createReport (parsedFiles files) = createReport (parsedFiles files') := by
  obtain ⟨report, created, aggregates⟩ := exists_createReport usable
  obtain ⟨report', created', aggregates'⟩ := exists_createReport usable'
  have windows : report.scanWindows = report'.scanWindows := by
    rw [scanWindows_of_createReport created, scanWindows_of_createReport created', same.windows]
  have reports : report = report' := ReportResults.ext_protocol (fun scanType =>
    (aggregates scanType).unique (aggregates' scanType) host_ne_none_of_ofType
      host_ne_none_of_ofType (same.hosts scanType)) windows
  rw [created, created', reports]

/-- Scans give the same report exactly if they have the same windows, and if each host has the same
results in the same order. -/
theorem createReport_eq_iff {files files' : List (String × Scan)}
    (usable : ∀ file ∈ files, file.2.Usable) (usable' : ∀ file ∈ files', file.2.Usable) :
    createReport (parsedFiles files) = createReport (parsedFiles files') ↔
      SameContent files files' := by
  refine ⟨fun equal => ?_, fun same => same.createReport usable usable'⟩
  obtain ⟨report, created, aggregates⟩ := exists_createReport usable
  have created' := equal.symm.trans created
  obtain ⟨_, again, aggregates'⟩ := exists_createReport usable'
  obtain rfl := Outcome.ok.inj (created'.symm.trans again)
  constructor
  · rw [← scanWindows_of_createReport created, ← scanWindows_of_createReport created']
  · intro scanType host
    rw [ofHost_eq_getD (aggregates scanType), ofHost_eq_getD (aggregates' scanType)]

def twoHosts (reverse : Bool) : List (String × Scan) :=
  let first : ScanResult :=
    .ssh ⟨"a.test", 22⟩ none (some "Could not resolve a.test") false none none
  let second : ScanResult :=
    .ssh ⟨"b.test", 22⟩ none (some "Could not resolve b.test") false none none
  [("ssh.json", ⟨if reverse then [second, first] else [first, second], "12:00", "12:01",
    crateVersion, .ssh⟩)]

theorem usable_twoHosts (reverse : Bool) : ∀ file ∈ twoHosts reverse, file.2.Usable := by
  cases reverse <;> simp only [twoHosts, List.mem_singleton, forall_eq] <;>
    exact ⟨rfl, by simp⟩

theorem createReport_twoHosts :
    createReport (parsedFiles (twoHosts false)) = createReport (parsedFiles (twoHosts true)) := by
  refine (createReport_eq_iff (usable_twoHosts false) (usable_twoHosts true)).mpr ⟨rfl, ?_⟩
  intro scanType host
  by_cases first : host = "a.test"
  · cases scanType <;> subst first <;> decide +kernel
  · cases scanType with
    | tls => rfl
    | ssh =>
      simp [twoHosts, allResults, ofType, ofHost, ScanResult.scanType, ScanResult.host,
        ScanResult.targetspec, List.filter_cons, Ne.symm first]

end PqcUtils.Scan

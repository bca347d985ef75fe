import PqcUtils.Scan.Report.Faults
import PqcUtils.Library.Text

/-!
# The results of a report in order

The text reports visit first the SSH hosts and then the TLS hosts, each set in its
order, and write one entry for each result of the host. So every result of the
input files is written exactly once.
-/

namespace PqcUtils.Scan

/-! ## Reports that are created -/

theorem aggregates_of_createReport {inputFiles : List (String × InputFile)}
    {report : ReportResults} (created : createReport inputFiles = .ok report) :
    ∃ files, inputFiles = parsedFiles files ∧ (∀ file ∈ files, file.2.Usable) ∧
      ∀ scanType, (report.protocol scanType).Aggregates
        (ofType scanType (allResults files)) := by
  obtain ⟨files, rfl, usable⟩ := exists_createReport_iff.mp ⟨report, created⟩
  obtain ⟨report', created', aggregates⟩ := exists_createReport usable
  rw [created, Outcome.ok.injEq] at created'
  exact ⟨files, rfl, usable, created' ▸ aggregates⟩

/-! ## Results in order -/

/-- The results of a protocol, host by host. -/
def ProtocolResults.listed (part : ProtocolResults) : List ScanResult :=
  (inOrder part.sortedHosts).flatMap fun host => (part.results.lookup host).getD []

def ReportResults.listed (report : ReportResults) : List ScanResult :=
  (report.protocol .ssh).listed ++ (report.protocol .tls).listed

theorem ProtocolResults.Aggregates.listed_eq {part : ProtocolResults} {results : List ScanResult}
    (aggregates : part.Aggregates results) :
    part.listed = (inOrder part.sortedHosts).flatMap (ofHost results) := by
  apply List.flatMap_congr
  intro host visited
  obtain ⟨list, found⟩ := Finmap.mem_iff.mp ((aggregates.hosts host).mp visited)
  rw [found, Option.getD_some, aggregates.lists host list found]

/-- Grouping by a key that every value has loses nothing. -/
theorem perm_flatMap_filter {Key Value : Type*} [DecidableEq Key] (key : Value → Option Key)
    {keys : List Key} (nodup : keys.Nodup) {values : List Value}
    (covered : ∀ value ∈ values, ∃ k ∈ keys, key value = some k) :
    (keys.flatMap fun k => values.filter fun value => key value = some k).Perm values := by
  induction keys generalizing values with
  | nil =>
    have empty : values = [] := List.eq_nil_iff_forall_not_mem.mpr fun value membership => by
      simpa using covered value membership
    simp [empty]
  | cons first keys ih =>
    obtain ⟨absent, nodup⟩ := List.nodup_cons.mp nodup
    have others : (keys.flatMap fun k => values.filter fun value => key value = some k) =
        keys.flatMap fun k => (values.filter fun value => ¬key value = some first).filter
          fun value => key value = some k := by
      apply List.flatMap_congr
      intro k membership
      rw [List.filter_filter]
      apply List.filter_congr
      intro value _
      have different : k ≠ first := fun same => absent (same ▸ membership)
      by_cases keyed : key value = some k <;> simp [keyed, different]
    have coveredOthers : ∀ value ∈ values.filter fun value => ¬key value = some first,
        ∃ k ∈ keys, key value = some k := by
      intro value membership
      simp only [List.mem_filter, decide_eq_true_eq] at membership
      obtain ⟨k, among, keyed⟩ := covered value membership.1
      obtain rfl | later := List.mem_cons.mp among
      · exact absurd keyed membership.2
      · exact ⟨k, later, keyed⟩
    rw [List.flatMap_cons, others]
    refine ((ih nodup coveredOthers).append_left _).trans ?_
    simpa using List.filter_append_perm (fun value => key value = some first) values

theorem ProtocolResults.Aggregates.listed_perm {part : ProtocolResults} {results : List ScanResult}
    (aggregates : part.Aggregates results) (filed : ∀ result ∈ results, result.host ≠ none) :
    part.listed.Perm results := by
  rw [aggregates.listed_eq]
  apply perm_flatMap_filter ScanResult.host (Finset.sort_nodup _ _)
  intro result membership
  obtain ⟨host, keyed⟩ := Option.ne_none_iff_exists'.mp (filed result membership)
  refine ⟨host, ?_, keyed⟩
  rw [← inOrder, aggregates.hosts, aggregates.keys]
  exact ⟨result, membership, keyed⟩

theorem listed_perm {files : List (String × Scan)} {report : ReportResults}
    (aggregates : ∀ scanType, (report.protocol scanType).Aggregates
      (ofType scanType (allResults files))) (scanType : ScanType) :
    (report.protocol scanType).listed.Perm (ofType scanType (allResults files)) := by
  apply (aggregates scanType).listed_perm
  intro result membership
  have typed : result.scanType = some scanType := by simpa using (List.mem_filter.mp membership).2
  cases result with
  | ssh | tls => simp [ScanResult.host, ScanResult.targetspec]
  | done => cases typed

def writeResults (sortedHosts : Finset String) (results : HashMap String (List ScanResult))
    (write : ScanResult → String) : String :=
  String.join <| (inOrder sortedHosts).map fun host =>
    match results.lookup host with
    | some hostResults => String.join (hostResults.map write)
    | none => ""

theorem toList_writeResults (part : ProtocolResults) (write : ScanResult → String) :
    (writeResults part.sortedHosts part.results write).toList =
      part.listed.flatMap fun result => (write result).toList := by
  rw [writeResults, String.toList_join, List.flatMap_map, ProtocolResults.listed,
    List.flatMap_assoc]
  apply List.flatMap_congr
  intro host _
  cases part.results.lookup host with
  | none => rfl
  | some hostResults => rw [String.toList_join, List.flatMap_map, Option.getD_some]

/-! ## Entries -/

def status (error : Option String) : String := if error.isSome then "error" else "success"

/-- What a report tells about a result. -/
structure Entry where
  scanType : String
  host : String
  port : String
  address : String
  status : String
  pqcSupported : String
  pqcAlgorithms : List String
  hybridAlgorithms : List String
  nonPqcAlgorithms : List String
  error : String
  deriving DecidableEq, Repr

def ScanResult.entry : ScanResult → Option Entry
  | .ssh targetspec addr error pqcSupported pqcAlgos nonpqcAlgos =>
    some ⟨"ssh", targetspec.host, toString targetspec.port.toNat, addr.getD "", Scan.status error,
      toString pqcSupported, pqcAlgos.getD [], [], nonpqcAlgos.getD [], error.getD ""⟩
  | .tls targetspec addr error pqcSupported pqcAlgos hybridAlgos nonpqcAlgos =>
    some ⟨"tls", targetspec.host, toString targetspec.port.toNat, addr.getD "", Scan.status error,
      toString pqcSupported, pqcAlgos.getD [], hybridAlgos.getD [], nonpqcAlgos.getD [],
      error.getD ""⟩
  | .done => none

/-- One entry for each result of the input files, in the order of the report. -/
structure ReportResults.Shows (report : ReportResults) (inputFiles : List (String × InputFile))
    (entries : List Entry) : Prop where
  listed : report.listed.map ScanResult.entry = entries.map some
  sorted : ∀ scanType, (inOrder (report.protocol scanType).sortedHosts).Pairwise (· < ·)
  complete : ∃ files, inputFiles = parsedFiles files ∧
    ∀ scanType, (report.protocol scanType).listed.Perm (ofType scanType (allResults files))

theorem exists_entries {results : List ScanResult} (genuine : .done ∉ results) :
    ∃ entries : List Entry, results.map ScanResult.entry = entries.map some := by
  induction results with
  | nil => exact ⟨[], rfl⟩
  | cons result results ih =>
    rw [List.mem_cons, not_or] at genuine
    obtain ⟨first, others⟩ := genuine
    obtain ⟨entries, listed⟩ := ih others
    cases result with
    | ssh | tls => exact ⟨_ :: entries, by rw [List.map_cons, listed]; rfl⟩
    | done => exact absurd rfl first

theorem ReportResults.Shows.scanType {report : ReportResults}
    {inputFiles : List (String × InputFile)} {entries : List Entry}
    (shows : report.Shows inputFiles entries) {scanType : ScanType} {result : ScanResult}
    (membership : result ∈ (report.protocol scanType).listed) :
    result.scanType = some scanType := by
  obtain ⟨files, -, perm⟩ := shows.complete
  simpa using (List.mem_filter.mp ((perm scanType).mem_iff.mp membership)).2

theorem exists_shows {inputFiles : List (String × InputFile)} {report : ReportResults}
    (created : createReport inputFiles = .ok report) :
    ∃ entries, report.Shows inputFiles entries := by
  obtain ⟨files, rfl, -, aggregates⟩ := aggregates_of_createReport created
  have genuine : .done ∉ report.listed := by
    rw [ReportResults.listed, List.mem_append, (listed_perm aggregates .ssh).mem_iff,
      (listed_perm aggregates .tls).mem_iff]
    simp [ofType, ScanResult.scanType]
  obtain ⟨entries, listed⟩ := exists_entries genuine
  exact ⟨entries, listed, fun scanType => (aggregates scanType).sorted, files, rfl,
    listed_perm aggregates⟩

/-- A writer that writes entries writes those of the report. -/
theorem ReportResults.Shows.toList_writeResults {report : ReportResults}
    {inputFiles : List (String × InputFile)} {entries : List Entry}
    (shows : report.Shows inputFiles entries) {writeSsh writeTls : ScanResult → String}
    (writeEntry : Entry → String)
    (ssh : ∀ result entry, result.scanType = some .ssh → result.entry = some entry →
      writeSsh result = writeEntry entry)
    (tls : ∀ result entry, result.scanType = some .tls → result.entry = some entry →
      writeTls result = writeEntry entry) :
    (writeResults report.sshSortedHosts report.sshResults writeSsh ++
        writeResults report.tlsSortedHosts report.tlsResults writeTls).toList =
      entries.flatMap fun entry => (writeEntry entry).toList := by
  let text (shown : Option Entry) : List Char :=
    (shown.map fun entry => (writeEntry entry).toList).getD []
  have shown {result : ScanResult} (membership : result ∈ report.listed) :
      ∃ entry, result.entry = some entry := by
    have among : result.entry ∈ entries.map some := shows.listed ▸ List.mem_map_of_mem membership
    obtain ⟨entry, -, same⟩ := List.mem_map.mp among
    exact ⟨entry, same.symm⟩
  have sshText : (writeResults report.sshSortedHosts report.sshResults writeSsh).toList =
      (report.protocol .ssh).listed.flatMap fun result => text result.entry := by
    refine (Scan.toList_writeResults (report.protocol .ssh) writeSsh).trans
      (List.flatMap_congr fun result membership => ?_)
    obtain ⟨entry, same⟩ := shown (List.mem_append_left _ membership)
    rw [ssh result entry (shows.scanType membership) same, same]
    rfl
  have tlsText : (writeResults report.tlsSortedHosts report.tlsResults writeTls).toList =
      (report.protocol .tls).listed.flatMap fun result => text result.entry := by
    refine (Scan.toList_writeResults (report.protocol .tls) writeTls).trans
      (List.flatMap_congr fun result membership => ?_)
    obtain ⟨entry, same⟩ := shown (List.mem_append_right _ membership)
    rw [tls result entry (shows.scanType membership) same, same]
    rfl
  calc (writeResults report.sshSortedHosts report.sshResults writeSsh ++
        writeResults report.tlsSortedHosts report.tlsResults writeTls).toList
      = report.listed.flatMap fun result => text result.entry := by
        rw [String.toList_append, sshText, tlsText, ReportResults.listed, List.flatMap_append]
    _ = (report.listed.map ScanResult.entry).flatMap text := (List.flatMap_map ..).symm
    _ = entries.flatMap fun entry => (writeEntry entry).toList := by
        rw [shows.listed, List.flatMap_map]
        rfl

end PqcUtils.Scan

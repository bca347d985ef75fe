import PqcUtils.Library.Csv
import PqcUtils.Scan.Report.Listing

/-!
# The CSV report

One record for each result below a header. A field is quoted when it holds a comma, a
quote or a line break, so whatever the strings are, a reader of the format gets them
back.
-/

namespace PqcUtils.Scan

open Text

/-! ## The writer -/

def joinAlgorithms (algorithms : Option (List String)) : String :=
  (algorithms.map (String.intercalate ";")).getD ""

def writeCsvField (field : String) : String :=
  if field.toList.any fun c => c = ',' ∨ c = '"' ∨ c = '\n' ∨ c = '\r' then
    "\"" ++ replaceChar '"' "\"\"" field ++ "\""
  else field

def writeCsvRecord (fields : List String) : String :=
  String.join (fields.zipIdx.map fun (field, idx) =>
    (if idx > 0 then "," else "") ++ writeCsvField field) ++ "\n"

def writeCsvSshResult : ScanResult → String
  | .ssh targetspec addr error pqcSupported pqcAlgos nonpqcAlgos =>
    writeCsvRecord [
      "ssh",
      targetspec.host,
      toString targetspec.port.toNat,
      addr.getD "",
      status error,
      toString pqcSupported,
      joinAlgorithms pqcAlgos,
      "",
      joinAlgorithms nonpqcAlgos,
      error.getD ""]
  | _ => ""

def writeCsvTlsResult : ScanResult → String
  | .tls targetspec addr error pqcSupported pqcAlgos hybridAlgos nonpqcAlgos =>
    writeCsvRecord [
      "tls",
      targetspec.host,
      toString targetspec.port.toNat,
      addr.getD "",
      status error,
      toString pqcSupported,
      joinAlgorithms pqcAlgos,
      joinAlgorithms hybridAlgos,
      joinAlgorithms nonpqcAlgos,
      error.getD ""]
  | _ => ""

def csvHeader : List String :=
  ["scan_type", "host", "port", "address", "status", "pqc_supported", "pqc_algorithms",
    "hybrid_algorithms", "non_pqc_algorithms", "error"]

def writeCsvReport (results : ReportResults) : Bytes :=
  toUtf8 <| writeCsvRecord csvHeader ++
    writeResults results.sshSortedHosts results.sshResults writeCsvSshResult ++
    writeResults results.tlsSortedHosts results.tlsResults writeCsvTlsResult

/-! ## Its records -/

theorem writes_writeCsvField (field : String) : Csv.Writes field (writeCsvField field).toList := by
  rw [writeCsvField]
  split
  · have text : ("\"" ++ replaceChar '"' "\"\"" field ++ "\"").toList =
        '"' :: (field.toList.flatMap fun c => if c = '"' then ['"', '"'] else [c]) ++ ['"'] := by
      simp [toList_replaceChar]
    rw [text]
    exact .quoted
  · next plain =>
    refine .plain fun c membership special => plain ?_
    exact List.any_eq_true.mpr ⟨c, membership, by simpa [Csv.Special] using special⟩

/-- Every field but the first is behind a comma. -/
theorem toList_otherFields (fields : List String) (idx : Nat) :
    (String.join ((fields.zipIdx (idx + 1)).map fun (field, idx) =>
        (if idx > 0 then "," else "") ++ writeCsvField field)).toList =
      (fields.map fun field => (writeCsvField field).toList).flatMap fun text => ',' :: text := by
  induction fields generalizing idx with
  | nil => rfl
  | cons field fields ih =>
    rw [List.zipIdx_cons, List.map_cons, String.join_cons, String.toList_append, ih]
    simp

theorem writesRecord_writeCsvRecord {fields : List String} (nonempty : fields ≠ []) :
    Csv.WritesRecord fields (writeCsvRecord fields).toList := by
  refine ⟨nonempty, fields.map fun field => (writeCsvField field).toList, ?_, ?_⟩
  · rw [List.forall₂_map_right_iff]
    exact List.forall₂_same.mpr fun field _ => writes_writeCsvField field
  · cases fields with
    | nil => exact absurd rfl nonempty
    | cons first others =>
      rw [writeCsvRecord, List.zipIdx_cons, List.map_cons, String.join_cons, String.toList_append,
        String.toList_append, toList_otherFields]
      simp [Csv.recordText]

/-! ## Reading the report -/

def Entry.columns (entry : Entry) : List String :=
  [entry.scanType, entry.host, entry.port, entry.address, entry.status, entry.pqcSupported,
    ";".intercalate entry.pqcAlgorithms, ";".intercalate entry.hybridAlgorithms,
    ";".intercalate entry.nonPqcAlgorithms, entry.error]

theorem joinAlgorithms_eq (algorithms : Option (List String)) :
    joinAlgorithms algorithms = ";".intercalate (algorithms.getD []) := by
  cases algorithms with
  | none => rfl
  | some items => rfl

theorem writeCsvSshResult_eq {result : ScanResult} {entry : Entry}
    (typed : result.scanType = some .ssh) (shown : result.entry = some entry) :
    writeCsvSshResult result = writeCsvRecord entry.columns := by
  cases result with
  | ssh =>
    cases shown
    simp only [writeCsvSshResult, Entry.columns, joinAlgorithms_eq]
    rfl
  | tls => cases typed
  | done => cases typed

theorem writeCsvTlsResult_eq {result : ScanResult} {entry : Entry}
    (typed : result.scanType = some .tls) (shown : result.entry = some entry) :
    writeCsvTlsResult result = writeCsvRecord entry.columns := by
  cases result with
  | ssh => cases typed
  | tls =>
    cases shown
    simp only [writeCsvTlsResult, Entry.columns, joinAlgorithms_eq]
  | done => cases typed

/-- Whatever the strings in it are, a report reads back as a header and one record of ten fields for
each result. -/
theorem read_writeCsvReport {inputFiles : List (String × InputFile)} {report : ReportResults}
    (created : createReport inputFiles = .ok report) :
    ∃ entries, report.Shows inputFiles entries ∧
      (fromUtf8 (writeCsvReport report)).bind Csv.read =
        some (csvHeader :: entries.map Entry.columns) ∧
      ∀ fields ∈ csvHeader :: entries.map Entry.columns, fields.length = 10 := by
  obtain ⟨entries, shows⟩ := exists_shows created
  refine ⟨entries, shows, ?_, by simp [csvHeader, Entry.columns]⟩
  have written := shows.toList_writeResults (fun entry => writeCsvRecord entry.columns)
    (fun _ _ => writeCsvSshResult_eq) fun _ _ => writeCsvTlsResult_eq
  have writes : List.Forall₂ Csv.WritesRecord (csvHeader :: entries.map Entry.columns)
      ((writeCsvRecord csvHeader).toList ::
        entries.map fun entry => (writeCsvRecord entry.columns).toList) := by
    refine .cons (writesRecord_writeCsvRecord (by simp [csvHeader])) ?_
    rw [List.forall₂_map_left_iff, List.forall₂_map_right_iff]
    exact List.forall₂_same.mpr fun entry _ =>
      writesRecord_writeCsvRecord (by simp [Entry.columns])
  rw [writeCsvReport, fromUtf8_toUtf8, Option.bind_some]
  apply Csv.read_of_writes writes
  rw [String.append_assoc, String.toList_append, written, List.flatten_cons, List.flatMap_def]

theorem read_writeCsvReport_twoScans :
    ∃ report entries, createReport (parsedFiles twoScans) = .ok report ∧
      report.Shows (parsedFiles twoScans) entries ∧
      (fromUtf8 (writeCsvReport report)).bind Csv.read =
        some (csvHeader :: entries.map Entry.columns) := by
  obtain ⟨report, created, -⟩ := exists_createReport usable_twoScans
  obtain ⟨entries, shows, read, -⟩ := read_writeCsvReport created
  exact ⟨report, entries, created, shows, read⟩

end PqcUtils.Scan

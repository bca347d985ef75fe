import PqcUtils.Scan.Report.Aggregation

/-!
# Input files that end a report

`create_report` takes one file after the other and goes no further than the first one
it cannot use. What it ends with then, an error or a panic, is told from that file
alone.
-/

namespace PqcUtils.Scan

/-! ## One file -/

inductive Fault where
  | error (text : String)
  | panic
  deriving DecidableEq, Repr

def Fault.outcome {Value : Type*} : Fault → Outcome String Value
  | .error text => .err text
  | .panic => .panic

/-- Why a file under this name cannot be used. The version is looked at before the results. -/
inductive InputFile.HasFault (inputFile : String) : InputFile → Fault → Prop
  | unreadable {error : String} : HasFault inputFile (.unreadable error) (.error error)
  | unparsable : HasFault inputFile .unparsable .panic
  | outdated {scan : Scan} : scan.version ≠ crateVersion → HasFault inputFile (.parsed scan)
      (.error ("Version mismatch: " ++ scan.version ++ " != " ++ crateVersion ++ " in " ++ inputFile))
  | marked {scan : Scan} : scan.version = crateVersion → .done ∈ scan.results →
      HasFault inputFile (.parsed scan) .panic

theorem usable_or_hasFault (inputFile : String) (file : InputFile) :
    (∃ scan, file = .parsed scan ∧ scan.Usable) ∨ ∃ fault, file.HasFault inputFile fault := by
  cases file with
  | unreadable error => exact .inr ⟨_, .unreadable⟩
  | unparsable => exact .inr ⟨_, .unparsable⟩
  | parsed scan =>
    by_cases current : scan.version = crateVersion
    · by_cases marked : .done ∈ scan.results
      · exact .inr ⟨_, .marked current marked⟩
      · exact .inl ⟨scan, rfl, current, marked⟩
    · exact .inr ⟨_, .outdated current⟩

theorem run_addResult_of_done {results : List ScanResult} (marked : .done ∈ results)
    (gathered : Gathered) : Runs.run addResult gathered results = none := by
  refine Option.eq_none_iff_forall_ne_some.mpr fun after ran => ?_
  obtain ⟨before, next, stepped⟩ := Runs.exists_step_of_mem ran marked
  cases stepped

theorem addFile_of_hasFault {inputFile : String} {file : InputFile} {fault : Fault}
    (faulty : file.HasFault inputFile fault) (gathered : Gathered) :
    addFile gathered inputFile file = fault.outcome := by
  cases faulty with
  | unreadable => rfl
  | unparsable => rfl
  | outdated other => rw [addFile, if_pos other, Fault.outcome]
  | marked current marked =>
    simp only [addFile, if_neg (not_not.mpr current), run_addResult_of_done marked, Fault.outcome]

/-! ## All files -/

def AllUsable (inputFiles : List (String × InputFile)) : Prop :=
  ∃ files, inputFiles = parsedFiles files ∧ ∀ file ∈ files, file.2.Usable

/-- The first file that cannot be used has this fault. Nothing is asked of the later ones. -/
def FirstFault (inputFiles : List (String × InputFile)) (fault : Fault) : Prop :=
  ∃ files inputFile file later, inputFiles = parsedFiles files ++ (inputFile, file) :: later ∧
    (∀ file ∈ files, file.2.Usable) ∧ file.HasFault inputFile fault

theorem allUsable_or_firstFault (inputFiles : List (String × InputFile)) :
    AllUsable inputFiles ∨ ∃ fault, FirstFault inputFiles fault := by
  induction inputFiles with
  | nil => exact .inl ⟨[], rfl, List.forall_mem_nil _⟩
  | cons input inputFiles ih =>
    obtain ⟨inputFile, file⟩ := input
    rcases usable_or_hasFault inputFile file with ⟨scan, rfl, usable⟩ | ⟨fault, faulty⟩
    · rcases ih with ⟨files, rfl, all⟩ | ⟨fault, files, name, file, later, rfl, all, faulty⟩
      · exact .inl ⟨(inputFile, scan) :: files, rfl, List.forall_mem_cons.mpr ⟨usable, all⟩⟩
      · exact .inr ⟨fault, (inputFile, scan) :: files, name, file, later, rfl,
          List.forall_mem_cons.mpr ⟨usable, all⟩, faulty⟩
    · exact .inr ⟨fault, [], inputFile, file, inputFiles, rfl, List.forall_mem_nil _, faulty⟩

theorem addFiles_append (gathered : Gathered) (inputFiles later : List (String × InputFile)) :
    addFiles gathered (inputFiles ++ later) =
      addFiles gathered inputFiles >>= fun gathered => addFiles gathered later := by
  induction inputFiles generalizing gathered with
  | nil => rfl
  | cons input inputFiles ih =>
    rw [List.cons_append, addFiles, addFiles]
    cases addFile gathered input.1 input.2 with
    | ok next => exact ih next
    | err error => rfl
    | panic => rfl

theorem createReport_of_firstFault {inputFiles : List (String × InputFile)} {fault : Fault}
    (first : FirstFault inputFiles fault) : createReport inputFiles = fault.outcome := by
  obtain ⟨files, inputFile, file, later, rfl, usable, faulty⟩ := first
  have start : Gathered.empty.Counts [] := ⟨Tally.counts_empty, Tally.counts_empty⟩
  obtain ⟨gathered, added, -⟩ := start.exists_addFiles usable
  rw [createReport, addFiles_append, added, Outcome.ok_bind, addFiles,
    addFile_of_hasFault faulty gathered]
  cases fault <;> rfl

theorem exists_createReport_iff {inputFiles : List (String × InputFile)} :
    (∃ report, createReport inputFiles = .ok report) ↔ AllUsable inputFiles := by
  constructor
  · rintro ⟨report, created⟩
    refine (allUsable_or_firstFault inputFiles).resolve_right ?_
    rintro ⟨fault, first⟩
    rw [createReport_of_firstFault first] at created
    cases fault <;> cases created
  · rintro ⟨files, rfl, usable⟩
    obtain ⟨report, created, -⟩ := exists_createReport usable
    exact ⟨report, created⟩

end PqcUtils.Scan

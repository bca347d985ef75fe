import PqcUtils.Dump.Output

/-!
# Reports written at the same time

However the calls of many processes interleave, each one that succeeds has
created its file, and the others have found all their candidates taken.
-/

namespace PqcUtils.Dump

open Text Interleaving ExclusiveFiles

variable {Directory Process : Type*} [DecidableEq Directory] [DecidableEq Process]

/-- The path that was asked for, or one in its directory with a number at the end of the stem. The
stem and the extension are those of the name, as far as they are UTF-8. -/
inductive IsVariant (requested : FilePath Directory) : FilePath Directory → Prop where
  | itself : IsVariant requested requested
  | numbered {path : FilePath Directory} (n : Nat) (range : 1 ≤ n ∧ n ≤ 99)
      (parent : path.parent = requested.parent)
      (stem : path.name.stem = numberedStem (lossy requested.name.stem) n)
      (extension : path.name.extension = requested.name.extension.map lossy) :
      IsVariant requested path

omit [DecidableEq Directory] in
theorem isVariant_of_mem {requested path : FilePath Directory}
    (membership : path ∈ candidates requested) : IsVariant requested path := by
  rcases List.mem_cons.mp membership with rfl | numbered
  · exact .itself
  · obtain ⟨n, range, rfl⟩ := List.mem_map.mp numbered
    rw [List.mem_range'_1, maxUniqueAttempts] at range
    exact .numbered n ⟨range.1, by omega⟩ rfl (requested.name.stem_numbered n)
      (requested.name.extension_numbered n)

theorem FileName.extension_of_text {name : FileName} {text : String}
    (isText : name.bytes = toUtf8 text) : name.extension.map lossy = name.extension := by
  rw [extension]
  rcases splitExtension_cases name.bytes with ⟨before, behind, nonempty, last, split⟩ | noDot
  · rw [split] at isText
    have kept := (lossy_parts (by decide) isText).2
    rw [split, splitExtension_of_dot nonempty last, Option.map_some, kept]
  · rw [splitExtension_of_noDot noDot, Option.map_none]

omit [DecidableEq Directory] in
theorem IsVariant.extension_eq {requested path : FilePath Directory}
    (variant : IsVariant requested path) {text : String}
    (isText : requested.name.bytes = toUtf8 text) :
    path.name.extension = requested.name.extension := by
  cases variant with
  | itself => rfl
  | numbered n range parent stem extension =>
    rw [extension, FileName.extension_of_text isText]

def startCalls (display : FilePath Directory → String) (requested : Process → FilePath Directory)
    (existing : Finset (FilePath Directory)) :
    State Process (FilePath Directory) (Except IoError Unit) (Except IoError (FilePath Directory))
      (Finset (FilePath Directory)) :=
  start existing fun process =>
    createUniqueFile (display (requested process)) (requested process)

/-- In every run a call that returns a path has created it, behind candidates that had been there;
no two calls return one path; and a call that fails has found all hundred candidates taken. -/
theorem createUniqueFile_exclusive (display : FilePath Directory → String)
    (requested : Process → FilePath Directory) (existing : Finset (FilePath Directory))
    (schedule : List Process)
    (state : State Process (FilePath Directory) (Except IoError Unit)
      (Except IoError (FilePath Directory)) (Finset (FilePath Directory)))
    (reached : Runs.run (step createNew) (startCalls display requested existing) schedule =
      some state) :
    (∀ process path, state.programs process = .done (.ok path) →
      Opened (candidates (requested process)) path (state.logOf process) ∧
      IsVariant (requested process) path ∧
      ∀ text, (requested process).name.bytes = toUtf8 text →
        path.name.extension = (requested process).name.extension) ∧
    (∀ process other path, state.programs process = .done (.ok path) →
      state.programs other = .done (.ok path) → process = other) ∧
    ∀ process error, state.programs process = .done (.error error) →
      (candidates (requested process)).length = 100 ∧ (candidates (requested process)).Nodup ∧
      Exhausted (candidates (requested process)) (state.logOf process) ∧
      (∀ entry ∈ state.logOf process, ¬Creates entry) ∧
      error = noFreeFilename (display (requested process)) := by
  simp only [startCalls, createUniqueFile_eq] at reached
  refine ⟨?_, fun process other path => opened_apart reached, ?_⟩
  · intro process path finished
    rcases outcome_of_run reached finished with ⟨_, same, opened⟩ | ⟨failed, -⟩
    · cases same
      have variant : IsVariant (requested process) path := by
        obtain ⟨earlier, last, later, -, split, -⟩ := opened
        exact isVariant_of_mem (by simp [split])
      exact ⟨opened, variant, fun text => variant.extension_eq⟩
    · cases failed
  · intro process error finished
    rcases outcome_of_run reached finished with ⟨_, same, -⟩ | ⟨failed, exhausted⟩
    · cases same
    · cases failed
      exact ⟨length_candidates _, nodup_candidates _, exhausted,
        fun entry membership creates => creates (exhausted.2 entry membership), rfl⟩

/-! ## Two reports -/

def reportHtml : FilePath Unit where
  parent := ()
  name := {
    bytes := [0x72, 0x65, 0x70, 0x6F, 0x72, 0x74, 0x2E, 0x68, 0x74, 0x6D, 0x6C]
    nonempty := by decide
    noSlash := by decide
    notDots := by decide }

/-- The call that comes second gets the next name. -/
theorem reportHtml_twice :
    ∃ state, Runs.run (step createNew)
        (startCalls (fun _ => "report.html") (fun _ : Bool => reportHtml) ∅) [true, false, false] =
        some state ∧
      state.programs true = .done (.ok reportHtml) ∧
      state.programs false = .done (.ok (reportHtml.numbered 1)) ∧
      Opened (candidates reportHtml) (reportHtml.numbered 1) (state.logOf false) := by
  obtain ⟨state, reached, first, second⟩ : ∃ state, Runs.run (step createNew)
        (startCalls (fun _ => "report.html") (fun _ : Bool => reportHtml) ∅) [true, false, false] =
        some state ∧
      state.programs true = .done (.ok reportHtml) ∧
      state.programs false = .done (.ok (reportHtml.numbered 1)) := ⟨_, rfl, rfl, rfl⟩
  have exclusive := createUniqueFile_exclusive _ _ _ _ state reached
  exact ⟨state, reached, first, second, (exclusive.1 false _ second).1⟩

/-- A name whose extension is a byte that is no text. -/
def strangeName : FilePath Unit where
  parent := ()
  name := {
    bytes := [0x72, 0x2E, 0xFF]
    nonempty := by decide
    noSlash := by decide
    notDots := by decide }

theorem strangeName_extension :
    ∃ state path, Runs.run (step createNew)
        (startCalls (fun _ => "r.") (fun _ : Unit => strangeName) {strangeName}) [(), ()] =
        some state ∧
      state.programs () = .done (.ok path) ∧ path ≠ strangeName ∧
      strangeName.name.extension = some [0xFF] ∧ path.name.extension = some replacement := by
  refine ⟨_, strangeName.numbered 1, rfl, rfl, ?_, by decide, by decide⟩
  decide

end PqcUtils.Dump

import PqcUtils.Library.Interleaving
import Mathlib.Data.Finset.Insert

/-!
# Exclusive creation

A file is opened only if it has to be created. Many processes that each look for
the first free one of their names create different files, and none of them one
that was there before.
-/

namespace PqcUtils.ExclusiveFiles

open Interleaving

universe u

inductive ErrorKind where
  | alreadyExists
  | other
  deriving DecidableEq, Repr

structure IoError where
  kind : ErrorKind
  text : String
  deriving DecidableEq, Repr

variable {Path : Type u}

/-- A program that opens files and ends with one of them. -/
abbrev Opener (Path : Type u) := Program Path (Except IoError Unit) (Except IoError Path)

def firstFree (exhausted : IoError) : List Path → Opener Path
  | [] => .done (.error exhausted)
  | path :: paths => .ask path fun
    | .ok () => .done (.ok path)
    | .error error =>
      if error.kind = .alreadyExists then firstFree exhausted paths else .done (.error error)

variable [DecidableEq Path]

/-- `create_new` where nothing else goes wrong. -/
def createNew (existing : Finset Path) (path : Path) : Except IoError Unit × Finset Path :=
  if path ∈ existing then (.error ⟨.alreadyExists, "File exists (os error 17)"⟩, existing)
  else (.ok (), insert path existing)

theorem createNew_of_mem {existing : Finset Path} {path : Path} (taken : path ∈ existing) :
    createNew existing path =
      (.error ⟨.alreadyExists, "File exists (os error 17)"⟩, existing) := if_pos taken

theorem createNew_of_notMem {existing : Finset Path} {path : Path} (free : path ∉ existing) :
    createNew existing path = (.ok (), insert path existing) := if_neg free

theorem mem_createNew (existing : Finset Path) (path : Path) {other : Path}
    (present : other ∈ existing) : other ∈ (createNew existing path).2 := by
  unfold createNew
  split
  · exact present
  · exact Finset.mem_insert_of_mem present

theorem mem_createNew_self (existing : Finset Path) (path : Path) :
    path ∈ (createNew existing path).2 := by
  unfold createNew
  split
  · next taken => exact taken
  · exact Finset.mem_insert_self path existing

/-! ## One process -/

section Process

variable {Process : Type*} {entries : List (Entry Process Path (Except IoError Unit) (Finset Path))}
  {exhausted : IoError} {paths : List Path}

/-- The paths that were tried first had all been there; the one after them had not. -/
def Opened (paths : List Path) (path : Path)
    (entries : List (Entry Process Path (Except IoError Unit) (Finset Path))) : Prop :=
  ∃ earlier last later, entries = earlier ++ [last] ∧
    paths = earlier.map Entry.request ++ path :: later ∧
    (∀ entry ∈ earlier, entry.request ∈ entry.before) ∧
    last.request = path ∧ path ∉ last.before

def Exhausted (paths : List Path)
    (entries : List (Entry Process Path (Except IoError Unit) (Finset Path))) : Prop :=
  entries.map Entry.request = paths ∧ ∀ entry ∈ entries, entry.request ∈ entry.before

theorem outcome_of_resume
    (answered : ∀ entry ∈ entries,
      entry.response = (createNew entry.before entry.request).1)
    {result : Except IoError Path}
    (finished : (firstFree exhausted paths).resume entries = some (.done result)) :
    (∃ path, result = .ok path ∧ Opened paths path entries) ∨
      result = .error exhausted ∧ Exhausted paths entries := by
  induction paths generalizing entries with
  | nil =>
    cases entries with
    | nil =>
      cases finished
      exact .inr ⟨rfl, rfl, nofun⟩
    | cons entry entries => cases finished
  | cons path paths ih =>
    cases entries with
    | nil => cases finished
    | cons entry entries =>
      obtain ⟨here, later⟩ := List.forall_mem_cons.mp answered
      rw [firstFree, Program.resume] at finished
      split at finished
      · next request =>
        subst request
        by_cases taken : entry.request ∈ entry.before
        · rw [here, createNew_of_mem taken] at finished
          rcases ih later finished with ⟨path, rfl, opened⟩ | ⟨rfl, requests, all⟩
          · obtain ⟨earlier, last, others, rfl, rfl, tried, created⟩ := opened
            exact .inl ⟨path, rfl, entry :: earlier, last, others, rfl, rfl,
              List.forall_mem_cons.mpr ⟨taken, tried⟩, created⟩
          · exact .inr ⟨rfl, by rw [List.map_cons, requests],
              List.forall_mem_cons.mpr ⟨taken, all⟩⟩
        · rw [here, createNew_of_notMem taken] at finished
          cases entries with
          | nil =>
            cases finished
            exact .inl ⟨_, rfl, [], entry, paths, rfl, rfl, nofun, rfl, taken⟩
          | cons next entries => cases finished
      · cases finished

end Process

/-! ## All processes -/

section Processes

variable {Process : Type*} [DecidableEq Process] {existing : Finset Path}
  {exhausted : Process → IoError} {paths : Process → List Path} {schedule : List Process}
  {state : State Process Path (Except IoError Unit) (Except IoError Path) (Finset Path)}

def Creates (entry : Entry Process Path (Except IoError Unit) (Finset Path)) : Prop :=
  entry.request ∉ entry.before

omit [DecidableEq Process] in
theorem eq_of_creates {first last : Finset Path}
    {entries : List (Entry Process Path (Except IoError Unit) (Finset Path))}
    (chained : Chained createNew first entries last) :
    ∀ entry ∈ entries, ∀ other ∈ entries, Creates entry → Creates other →
      entry.request = other.request → entry = other := by
  induction entries generalizing first with
  | nil => exact nofun
  | cons earliest entries ih =>
    obtain ⟨-, -, rest⟩ := chained
    -- Once the first request is answered its path is there, so no later one creates it.
    have taken : ∀ later ∈ entries, Creates later → earliest.request ≠ later.request := by
      intro later membership creates same
      have present := (rest.kept (fun world => earliest.request ∈ world)
        (fun world request => mem_createNew world request)
        (mem_createNew_self first earliest.request)).2 later membership
      exact creates (same ▸ present)
    intro entry membership other membership' creates creates' same
    rcases List.mem_cons.mp membership with rfl | later
    · rcases List.mem_cons.mp membership' with rfl | later'
      · rfl
      · exact absurd same (taken other later' creates')
    · rcases List.mem_cons.mp membership' with rfl | later'
      · exact absurd same.symm (taken entry later creates)
      · exact ih rest entry later other later' creates creates' same

variable (reached : Runs.run (step createNew)
  (start existing fun process => firstFree (exhausted process) (paths process)) schedule =
    some state)

include reached

theorem outcome_of_run {process : Process} {result : Except IoError Path}
    (finished : state.programs process = .done result) :
    (∃ path, result = .ok path ∧ Opened (paths process) path (state.logOf process)) ∨
      result = .error (exhausted process) ∧ Exhausted (paths process) (state.logOf process) := by
  have resumed := resume_logOf reached process
  rw [finished] at resumed
  refine outcome_of_resume (fun entry membership => ?_) resumed
  exact (chained_log reached).response_eq entry (List.mem_of_mem_filter membership)

theorem exists_creates {process : Process} {path : Path}
    (opened : state.programs process = .done (.ok path)) :
    ∃ entry ∈ state.log, entry.process = process ∧ entry.request = path ∧ Creates entry := by
  rcases outcome_of_run reached opened with ⟨_, same, opened⟩ | ⟨failed, -⟩
  · cases same
    obtain ⟨earlier, last, later, log, -, -, rfl, free⟩ := opened
    have own : last ∈ state.logOf process := by simp [log]
    obtain ⟨membership, ofProcess⟩ := List.mem_filter.mp own
    exact ⟨last, membership, of_decide_eq_true ofProcess, rfl, free⟩
  · cases failed

/-- Two processes never open the same file. -/
theorem opened_apart {process other : Process} {path : Path}
    (opened : state.programs process = .done (.ok path))
    (opened' : state.programs other = .done (.ok path)) : process = other := by
  obtain ⟨entry, membership, rfl, request, creates⟩ := exists_creates reached opened
  obtain ⟨entry', membership', rfl, request', creates'⟩ := exists_creates reached opened'
  have same := eq_of_creates (chained_log reached) entry membership entry' membership' creates
    creates' (request.trans request'.symm)
  rw [same]

end Processes

end PqcUtils.ExclusiveFiles

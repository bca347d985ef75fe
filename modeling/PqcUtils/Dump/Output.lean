import PqcUtils.Library.ExclusiveFiles
import PqcUtils.Library.Lossy

/-!
# The file of a report

A report is never written over a file. If the path that is asked for is taken,
the name gets a number in front of its extension, from 01 to 99. The stem and the
extension are taken as lossy text.
-/

namespace PqcUtils.Dump

open Text Interleaving ExclusiveFiles

/-! ## Names -/

structure FileName where
  bytes : Bytes
  nonempty : bytes ≠ []
  noSlash : 0x2F ∉ bytes
  notDots : bytes ≠ [0x2E] ∧ bytes ≠ [0x2E, 0x2E]
  deriving DecidableEq

/-- `file_stem` and `extension` of a name: what is around the last dot, unless the name has no other
bytes in front of it. -/
def splitExtension (name : Bytes) : Bytes × Option Bytes :=
  let (behind, before) := name.reverse.span (· ≠ 0x2E)
  match before with
  | [] => (name, none)
  | [_] => (name, none)
  | _ :: before => (before.reverse, some behind.reverse)

def FileName.stem (name : FileName) : Bytes := (splitExtension name.bytes).1

def FileName.extension (name : FileName) : Option Bytes := (splitExtension name.bytes).2

/-- `{n:02}` for a number up to 99. -/
def twoDigits (n : Nat) : Bytes := [0x30 + .ofNat (n / 10 % 10), 0x30 + .ofNat (n % 10)]

def numberedStem (stem : Bytes) (n : Nat) : Bytes := stem ++ 0x2D :: twoDigits n

def candidateName (stem : Bytes) (ext : Option Bytes) (n : Nat) : Bytes :=
  match ext with
  | some ext => numberedStem stem n ++ 0x2E :: ext
  | none => numberedStem stem n

/-- The name with a number, from the stem and the extension as text. -/
def lossyCandidate (name : Bytes) (n : Nat) : Bytes :=
  candidateName (lossy (splitExtension name).1) ((splitExtension name).2.map lossy) n

/-! ## What a name is made of -/

/-- A dot with something in front of it and no other one behind it starts the extension. -/
theorem splitExtension_of_dot {before behind : Bytes} (nonempty : before ≠ [])
    (last : 0x2E ∉ behind) : splitExtension (before ++ 0x2E :: behind) = (before, some behind) := by
  rw [splitExtension, span_reverse_of_split before last]
  cases reversed : before.reverse with
  | nil => exact absurd (List.reverse_eq_nil_iff.mp reversed) nonempty
  | cons first others =>
    simp only
    rw [← reversed, List.reverse_reverse, List.reverse_reverse]

theorem splitExtension_of_noDot {name : Bytes} (noDot : 0x2E ∉ name.tail) :
    splitExtension name = (name, none) := by
  cases name with
  | nil => rfl
  | cons first rest =>
    rw [List.tail_cons] at noDot
    by_cases dot : first = 0x2E
    · have spans := span_reverse_of_split [] noDot
      rw [List.nil_append] at spans
      rw [splitExtension, dot, spans]
      rfl
    · have absent : 0x2E ∉ first :: rest := by simp [Ne.symm dot, noDot]
      rw [splitExtension, span_reverse_of_notMem absent]

theorem splitExtension_cases (name : Bytes) :
    (∃ before behind, before ≠ [] ∧ 0x2E ∉ behind ∧ name = before ++ 0x2E :: behind) ∨
      0x2E ∉ name.tail := by
  by_cases dot : 0x2E ∈ name.tail
  · cases name with
    | nil => cases dot
    | cons first rest =>
      obtain ⟨behind, before, split, last⟩ :=
        List.eq_append_cons_of_mem (List.mem_reverse.mpr dot)
      refine .inl ⟨first :: before.reverse, behind.reverse, by simp, by simpa using last, ?_⟩
      have forward := congrArg List.reverse split
      simp only [List.tail_cons, List.reverse_reverse, List.reverse_append, List.reverse_cons,
        List.append_assoc, List.singleton_append] at forward
      rw [forward, List.cons_append]
  · exact .inr dot

/-! ## Numbered names -/

theorem forall_twoDigits (n : Nat) : ∀ byte ∈ twoDigits n, byte ≠ 0x2F ∧ byte ≠ 0x2E := by
  have digits : ∀ digit < 10, (0x30 + .ofNat digit : UInt8) ≠ 0x2F ∧
      (0x30 + .ofNat digit : UInt8) ≠ 0x2E := by decide
  simp [twoDigits, digits _ (Nat.mod_lt _ (by decide : 10 > 0))]

theorem twoDigits_injective {m n : Nat} (small : m < 100) (small' : n < 100)
    (same : twoDigits m = twoDigits n) : m = n := by
  have digits : ∀ digit < 10, ∀ digit' < 10,
      (0x30 + .ofNat digit : UInt8) = 0x30 + .ofNat digit' → digit = digit' := by decide
  have ten : 10 > 0 := by decide
  simp only [twoDigits, List.cons.injEq, and_true] at same
  have high := digits _ (Nat.mod_lt _ ten) _ (Nat.mod_lt _ ten) same.1
  have low := digits _ (Nat.mod_lt _ ten) _ (Nat.mod_lt _ ten) same.2
  omega

theorem dot_notMem_lossy {bytes : Bytes} (absent : 0x2E ∉ bytes) : 0x2E ∉ lossy bytes :=
  notMem_lossy (by decide) absent

theorem slash_notMem_lossy {bytes : Bytes} (absent : 0x2F ∉ bytes) : 0x2F ∉ lossy bytes :=
  notMem_lossy (by decide) absent

theorem dot_notMem_numberedStem {stem : Bytes} (absent : 0x2E ∉ stem) (n : Nat) :
    0x2E ∉ numberedStem stem n := by
  have digits : 0x2E ∉ twoDigits n := fun membership => (forall_twoDigits n _ membership).2 rfl
  simp [numberedStem, absent, digits]

theorem splitExtension_lossyCandidate (name : Bytes) (n : Nat) :
    splitExtension (lossyCandidate name n) =
      (numberedStem (lossy (splitExtension name).1) n, (splitExtension name).2.map lossy) := by
  rcases splitExtension_cases name with ⟨before, behind, nonempty, last, rfl⟩ | noDot
  · rw [lossyCandidate, splitExtension_of_dot nonempty last]
    exact splitExtension_of_dot (by simp [numberedStem]) (dot_notMem_lossy last)
  · rw [lossyCandidate, splitExtension_of_noDot noDot]
    apply splitExtension_of_noDot
    cases name with
    | nil => exact fun membership => (forall_twoDigits n _ membership).2 rfl
    | cons first rest =>
      rw [List.tail_cons] at noDot
      by_cases dot : first = 0x2E
      · have begins : lossy (0x2E :: rest) = 0x2E :: lossy rest :=
          lossy_append_ascii (by decide) [] rest
        rw [dot, begins]
        exact dot_notMem_numberedStem (dot_notMem_lossy noDot) n
      · have absent : 0x2E ∉ first :: rest := by simp [Ne.symm dot, noDot]
        exact fun membership => dot_notMem_numberedStem (dot_notMem_lossy absent) n
          (List.mem_of_mem_tail membership)

theorem length_lt_length_lossyCandidate (name : Bytes) (n : Nat) :
    name.length < (lossyCandidate name n).length := by
  rcases splitExtension_cases name with ⟨before, behind, nonempty, last, rfl⟩ | noDot
  · have front := length_le_length_lossy before
    have back := length_le_length_lossy behind
    simp only [lossyCandidate, splitExtension_of_dot nonempty last, Option.map_some, candidateName,
      numberedStem, List.length_append, List.length_cons]
    omega
  · have front := length_le_length_lossy name
    simp only [lossyCandidate, splitExtension_of_noDot noDot, Option.map_none, candidateName,
      numberedStem, List.length_append, List.length_cons]
    omega

theorem lossyCandidate_injective (name : Bytes) {m n : Nat} (small : m < 100) (small' : n < 100)
    (same : lossyCandidate name m = lossyCandidate name n) : m = n := by
  have stems := congrArg (fun candidate => (splitExtension candidate).1) same
  simp only [splitExtension_lossyCandidate] at stems
  have digits := (List.cons.inj (List.append_cancel_left stems)).2
  exact twoDigits_injective small small' digits

theorem slash_notMem_lossyCandidate {name : Bytes} (noSlash : 0x2F ∉ name) (n : Nat) :
    0x2F ∉ lossyCandidate name n := by
  have digits : 0x2F ∉ twoDigits n := fun membership => (forall_twoDigits n _ membership).1 rfl
  rcases splitExtension_cases name with ⟨before, behind, nonempty, last, rfl⟩ | noDot
  · have front : 0x2F ∉ before := fun membership => noSlash (by simp [membership])
    have back : 0x2F ∉ behind := fun membership => noSlash (by simp [membership])
    simp [lossyCandidate, splitExtension_of_dot nonempty last, candidateName, numberedStem, digits,
      slash_notMem_lossy front, slash_notMem_lossy back]
  · simp [lossyCandidate, splitExtension_of_noDot noDot, candidateName, numberedStem, digits,
      slash_notMem_lossy noSlash]

theorem dash_mem_lossyCandidate (name : Bytes) (n : Nat) : 0x2D ∈ lossyCandidate name n := by
  unfold lossyCandidate candidateName
  split <;> simp [numberedStem]

def FileName.numbered (name : FileName) (n : Nat) : FileName where
  bytes := lossyCandidate name.bytes n
  nonempty empty := by
    have long := length_lt_length_lossyCandidate name.bytes n
    simp [empty] at long
  noSlash := slash_notMem_lossyCandidate name.noSlash n
  notDots := by
    have dash := dash_mem_lossyCandidate name.bytes n
    constructor <;> intro same <;> simp [same] at dash

theorem FileName.stem_numbered (name : FileName) (n : Nat) :
    (name.numbered n).stem = numberedStem (lossy name.stem) n :=
  congrArg Prod.fst (splitExtension_lossyCandidate name.bytes n)

theorem FileName.extension_numbered (name : FileName) (n : Nat) :
    (name.numbered n).extension = name.extension.map lossy :=
  congrArg Prod.snd (splitExtension_lossyCandidate name.bytes n)

/-! ## Files -/

structure FilePath (Directory : Type*) where
  parent : Directory
  name : FileName
  deriving DecidableEq

def maxUniqueAttempts : Nat := 99

section Create

variable {Directory : Type*}

def FilePath.numbered (path : FilePath Directory) (n : Nat) : FilePath Directory :=
  ⟨path.parent, path.name.numbered n⟩

/-- The error when all names are taken, with the path as it is displayed. -/
def noFreeFilename (display : String) : IoError :=
  ⟨.alreadyExists, "could not find a free filename after " ++ toString maxUniqueAttempts ++
    " attempts based on " ++ display⟩

def tryNumbers (display : String) (path : FilePath Directory) :
    List Nat → Opener (FilePath Directory)
  | [] => .done (.error (noFreeFilename display))
  | n :: numbers =>
    .ask (path.numbered n) fun
    | .ok () => .done (.ok (path.numbered n))
    | .error error =>
      if error.kind = .alreadyExists then tryNumbers display path numbers
      else .done (.error error)

def createUniqueFile (display : String) (path : FilePath Directory) :
    Opener (FilePath Directory) :=
  .ask path fun
  | .ok () => .done (.ok path)
  | .error error =>
    if error.kind ≠ .alreadyExists then .done (.error error)
    else tryNumbers display path (List.range' 1 maxUniqueAttempts)

def candidates (path : FilePath Directory) : List (FilePath Directory) :=
  path :: (List.range' 1 maxUniqueAttempts).map path.numbered

theorem tryNumbers_eq (display : String) (path : FilePath Directory) (numbers : List Nat) :
    tryNumbers display path numbers =
      firstFree (noFreeFilename display) (numbers.map path.numbered) := by
  induction numbers with
  | nil => rfl
  | cons n numbers ih =>
    rw [tryNumbers, ih]
    rfl

/-- The function opens the first of the candidates that is free. -/
theorem createUniqueFile_eq (display : String) (path : FilePath Directory) :
    createUniqueFile display path = firstFree (noFreeFilename display) (candidates path) := by
  rw [createUniqueFile, candidates, firstFree, tryNumbers_eq]
  congr
  funext answer
  cases answer with
  | ok => rfl
  | error error => simp only [ne_eq, ite_not]

theorem length_candidates (path : FilePath Directory) : (candidates path).length = 100 := by
  simp [candidates, maxUniqueAttempts]

theorem nodup_candidates (path : FilePath Directory) : (candidates path).Nodup := by
  refine List.nodup_cons.mpr ⟨?_, ?_⟩
  · intro membership
    obtain ⟨n, -, same⟩ := List.mem_map.mp membership
    have longer := length_lt_length_lossyCandidate path.name.bytes n
    have bytes : lossyCandidate path.name.bytes n = path.name.bytes :=
      congrArg (fun other => other.name.bytes) same
    rw [bytes] at longer
    exact Nat.lt_irrefl _ longer
  · refine List.Nodup.map_on ?_ List.nodup_range'
    intro m membership n membership' same
    have bytes : lossyCandidate path.name.bytes m = lossyCandidate path.name.bytes n :=
      congrArg (fun other => other.name.bytes) same
    rw [List.mem_range'_1, maxUniqueAttempts] at membership membership'
    exact lossyCandidate_injective path.name.bytes (by omega) (by omega) bytes

end Create

end PqcUtils.Dump

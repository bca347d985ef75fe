import PqcUtils.Library.Runs
import Mathlib.Data.List.Forall2

/-!
# Comma-separated values

A reader of the format of RFC 4180, in which records end with a line feed. It takes
one character at a time and refuses quotes and carriage returns outside of quoted
fields. A writer may quote any field and must quote some; whatever it does, the
reader gets the fields back.
-/

namespace PqcUtils.Csv

/-- Where the reader stands in a field; `closed` is behind a quote in a quoted field. -/
inductive Mode where
  | start
  | plain
  | quoted
  | closed
  deriving DecidableEq, Repr

structure Reader where
  mode : Mode
  field : List Char
  record : List String
  records : List (List String)
  deriving DecidableEq, Repr

namespace Reader

def push (reader : Reader) (mode : Mode) (c : Char) : Reader :=
  { reader with mode, field := reader.field ++ [c] }

def endField (reader : Reader) : Reader :=
  { reader with mode := .start, field := [], record := reader.record ++ [.ofList reader.field] }

def endRecord (reader : Reader) : Reader :=
  ⟨.start, [], [], reader.records ++ [reader.record ++ [.ofList reader.field]]⟩

end Reader

def Special (c : Char) : Prop := c = ',' ∨ c = '"' ∨ c = '\n' ∨ c = '\r'

instance (c : Char) : Decidable (Special c) :=
  inferInstanceAs (Decidable (c = ',' ∨ c = '"' ∨ c = '\n' ∨ c = '\r'))

def step (reader : Reader) (c : Char) : Option Reader :=
  match reader.mode with
  | .quoted => some (if c = '"' then { reader with mode := .closed } else reader.push .quoted c)
  | mode =>
    if c = ',' then some reader.endField
    else if c = '\n' then some reader.endRecord
    else if c = '"' then
      match mode with
      | .start => some { reader with mode := .quoted }
      | .closed => some (reader.push .quoted c)
      | _ => none
    else if c = '\r' ∨ mode = .closed then none
    else some (reader.push .plain c)

def finish (reader : Reader) : Option (List (List String)) :=
  match reader.mode with
  | .quoted => none
  | mode =>
    if mode = .start ∧ reader.record = [] then some reader.records
    else some reader.endRecord.records

def read (text : String) : Option (List (List String)) :=
  (Runs.run step ⟨.start, [], [], []⟩ text.toList).bind finish

/-! ## Writers -/

/-- The text stands for the field: it is the field itself, or the field in quotes. -/
inductive Writes (field : String) : List Char → Prop where
  | plain : (∀ c ∈ field.toList, ¬Special c) → Writes field field.toList
  | quoted : Writes field
      ('"' :: (field.toList.flatMap fun c => if c = '"' then ['"', '"'] else [c]) ++ ['"'])

def recordText : List (List Char) → List Char
  | [] => ['\n']
  | first :: others => first ++ (others.flatMap fun text => ',' :: text) ++ ['\n']

def WritesRecord (fields : List String) (text : List Char) : Prop :=
  fields ≠ [] ∧ ∃ texts, List.Forall₂ Writes fields texts ∧ text = recordText texts

/-! ## Reading what was written -/

theorem step_usual {reader : Reader} (inside : reader.mode = .start ∨ reader.mode = .plain)
    {c : Char} (usual : ¬Special c) : step reader c = some (reader.push .plain c) := by
  simp only [Special, not_or] at usual
  obtain ⟨comma, quote, lineFeed, carriageReturn⟩ := usual
  obtain atStart | afterStart := inside
  · simp [step, atStart, comma, quote, lineFeed, carriageReturn]
  · simp [step, afterStart, comma, quote, lineFeed, carriageReturn]

theorem run_plain {chars : List Char} (usual : ∀ c ∈ chars, ¬Special c) (field : List Char)
    (record : List String) (records : List (List String)) :
    Runs.run step ⟨.plain, field, record, records⟩ chars =
      some ⟨.plain, field ++ chars, record, records⟩ := by
  induction chars generalizing field with
  | nil => simp
  | cons c chars ih =>
    obtain ⟨here, later⟩ := List.forall_mem_cons.mp usual
    rw [Runs.run_cons, step_usual (.inr rfl) here, Option.bind_some, Reader.push, ih later]
    simp

theorem run_quoted (chars field : List Char) (record : List String)
    (records : List (List String)) :
    Runs.run step ⟨.quoted, field, record, records⟩
        (chars.flatMap fun c => if c = '"' then ['"', '"'] else [c]) =
      some ⟨.quoted, field ++ chars, record, records⟩ := by
  induction chars generalizing field with
  | nil => simp
  | cons c chars ih =>
    rw [List.flatMap_cons, Runs.run_append]
    by_cases quote : c = '"'
    · have taken : Runs.run step ⟨.quoted, field, record, records⟩ ['"', '"'] =
          some ⟨.quoted, field ++ ['"'], record, records⟩ := by
        simp [step, Reader.push]
      rw [quote, if_pos rfl, taken, Option.bind_some, ih]
      simp
    · have taken : Runs.run step ⟨.quoted, field, record, records⟩ [c] =
          some ⟨.quoted, field ++ [c], record, records⟩ := by
        simp [step, Reader.push, quote]
      rw [if_neg quote, taken, Option.bind_some, ih]
      simp

theorem run_field {field : String} {text : List Char} (writes : Writes field text)
    (record : List String) (records : List (List String)) :
    ∃ mode, mode ≠ .quoted ∧ Runs.run step ⟨.start, [], record, records⟩ text =
      some ⟨mode, field.toList, record, records⟩ := by
  cases writes with
  | plain usual =>
    cases chars : field.toList with
    | nil => exact ⟨.start, by simp, by simp⟩
    | cons c chars' =>
      rw [chars] at usual
      obtain ⟨here, later⟩ := List.forall_mem_cons.mp usual
      refine ⟨.plain, by simp, ?_⟩
      rw [Runs.run_cons, step_usual (.inl rfl) here, Option.bind_some, Reader.push,
        run_plain later]
      simp
  | quoted =>
    have opened : step ⟨.start, [], record, records⟩ '"' = some ⟨.quoted, [], record, records⟩ := by
      simp [step]
    have closed : step ⟨.quoted, field.toList, record, records⟩ '"' =
        some ⟨.closed, field.toList, record, records⟩ := by
      simp [step]
    refine ⟨.closed, by simp, ?_⟩
    rw [List.cons_append, Runs.run_cons, opened, Option.bind_some, Runs.run_append, run_quoted,
      Option.bind_some, List.nil_append, Runs.run_cons, closed, Option.bind_some, Runs.run_nil]

theorem step_comma {reader : Reader} (unquoted : reader.mode ≠ .quoted) :
    step reader ',' = some reader.endField := by
  obtain ⟨mode, field, record, records⟩ := reader
  cases mode with
  | quoted => exact absurd rfl unquoted
  | start | plain | closed => simp [step]

theorem step_lineFeed {reader : Reader} (unquoted : reader.mode ≠ .quoted) :
    step reader '\n' = some reader.endRecord := by
  obtain ⟨mode, field, record, records⟩ := reader
  cases mode with
  | quoted => exact absurd rfl unquoted
  | start | plain | closed => simp [step]

theorem run_others {fields : List String} {texts : List (List Char)}
    (writes : List.Forall₂ Writes fields texts) {mode : Mode} (unquoted : mode ≠ .quoted)
    (field : String) (record : List String) (records : List (List String)) :
    Runs.run step ⟨mode, field.toList, record, records⟩
        ((texts.flatMap fun text => ',' :: text) ++ ['\n']) =
      some ⟨.start, [], [], records ++ [record ++ field :: fields]⟩ := by
  induction writes generalizing mode field record with
  | nil =>
    rw [List.flatMap_nil, List.nil_append, Runs.run_cons, step_lineFeed unquoted, Option.bind_some,
      Runs.run_nil]
    simp [Reader.endRecord]
  | @cons next text fields texts writesNext _ ih =>
    obtain ⟨mode', unquoted', ran⟩ := run_field writesNext (record ++ [field]) records
    have ended : Reader.endField ⟨mode, field.toList, record, records⟩ =
        ⟨.start, [], record ++ [field], records⟩ := by
      simp [Reader.endField]
    rw [List.flatMap_cons, List.cons_append, List.cons_append, Runs.run_cons, step_comma unquoted,
      Option.bind_some, ended, List.append_assoc, Runs.run_append, ran, Option.bind_some,
      ih unquoted']
    simp

theorem run_record {fields : List String} {text : List Char} (writes : WritesRecord fields text)
    (records : List (List String)) :
    Runs.run step ⟨.start, [], [], records⟩ text =
      some ⟨.start, [], [], records ++ [fields]⟩ := by
  obtain ⟨nonempty, texts, writesAll, rfl⟩ := writes
  cases writesAll with
  | nil => exact absurd rfl nonempty
  | @cons _ text _ texts writesFirst writesOthers =>
    obtain ⟨mode, unquoted, ran⟩ := run_field writesFirst [] records
    rw [recordText, List.append_assoc, Runs.run_append, ran, Option.bind_some,
      run_others writesOthers unquoted]
    simp

/-- Any rows of fields can be read back from what was written for them. -/
theorem read_of_writes {rows : List (List String)} {texts : List (List Char)}
    (writes : List.Forall₂ WritesRecord rows texts) {text : String}
    (whole : text.toList = texts.flatten) : read text = some rows := by
  have ran (records : List (List String)) : Runs.run step ⟨.start, [], [], records⟩ texts.flatten =
      some ⟨.start, [], [], records ++ rows⟩ := by
    clear whole
    induction writes generalizing records with
    | nil => simp
    | cons writesRecord _ ih =>
      rw [List.flatten_cons, Runs.run_append, run_record writesRecord, Option.bind_some, ih]
      simp
  rw [read, whole, ran]
  simp [finish]

end PqcUtils.Csv

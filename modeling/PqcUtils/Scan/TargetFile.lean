import PqcUtils.Scan.Addresses
import PqcUtils.Scan.Runner.QuitMarkers

/-!
# A list of targets in a file

A file with one target on each line, among comments and blank lines, is read back as
these targets. The format has no escapes: a host may not break its line, and it may
not make the line a comment.
-/

namespace PqcUtils.Scan

open Text

/-! ## Lines -/

inductive FileLine where
  | target (entry : Target)
  | comment (text : String) (unbroken : '\n' ∉ text.toList ∧ '\r' ∉ text.toList)
  | blank

namespace FileLine

def text : FileLine → String
  | target entry => entry.display
  | comment text _ => "#" ++ text
  | blank => ""

def target? : FileLine → Option Target
  | target entry => some entry
  | _ => none

end FileLine

/-- A line ends with a line feed, or with a carriage return and a line feed. -/
def lineEnd (carriageReturn : Bool) : Bytes := if carriageReturn then [13, 10] else [10]

def writeLines (lines : List (FileLine × Bool)) : Bytes :=
  lines.flatMap fun line => toUtf8 line.1.text ++ lineEnd line.2

def targetsOf (lines : List (FileLine × Bool)) : List Target :=
  lines.filterMap fun line => line.1.target?

/-- The host does not break the line and does not make it a comment. -/
structure Target.FitsLine (target : Target) : Prop where
  unbroken : '\n' ∉ target.host.toList
  noComment : target.host.toList.head? ≠ some '#'

/-! ## Reading a line -/

theorem readLines_lineFeed (line : Bytes) {bytes : Bytes} (unbroken : 10 ∉ bytes) (rest : Bytes) :
    readLines line (bytes ++ 10 :: rest) =
      (if (line ++ bytes).getLast? = some 13 then (line ++ bytes).dropLast else line ++ bytes) ::
        readLines [] rest := by
  induction bytes generalizing line with
  | nil => simp [readLines]
  | cons byte bytes ih =>
    rw [List.mem_cons, not_or] at unbroken
    rw [List.cons_append, readLines, if_neg (Ne.symm unbroken.1), ih _ unbroken.2,
      List.append_assoc, List.singleton_append]

theorem readLines_lineEnd {bytes : Bytes} (unbroken : 10 ∉ bytes) (plain : bytes.getLast? ≠ some 13)
    (carriageReturn : Bool) (rest : Bytes) :
    readLines [] (bytes ++ lineEnd carriageReturn ++ rest) = bytes :: readLines [] rest := by
  cases carriageReturn with
  | false =>
    have split : bytes ++ lineEnd false ++ rest = bytes ++ 10 :: rest := by simp [lineEnd]
    rw [split, readLines_lineFeed [] unbroken, List.nil_append, if_neg plain]
  | true =>
    have split : bytes ++ lineEnd true ++ rest = (bytes ++ [13]) ++ 10 :: rest := by simp [lineEnd]
    have unbroken' : 10 ∉ bytes ++ [13] := by simpa using unbroken
    rw [split, readLines_lineFeed [] unbroken', List.nil_append, if_pos (by simp),
      List.dropLast_concat]

theorem lineFeed_notMem_readLines {line content bytes : Bytes} (unbroken : 10 ∉ line)
    (among : bytes ∈ readLines line content) : 10 ∉ bytes := by
  induction content generalizing line with
  | nil =>
    rw [readLines] at among
    split at among
    · cases among
    · rwa [List.mem_singleton.mp among]
  | cons byte content ih =>
    rw [readLines] at among
    split at among
    · rcases List.mem_cons.mp among with rfl | later
      · split
        · exact fun feed => unbroken (List.mem_of_mem_dropLast feed)
        · exact unbroken
      · exact ih List.not_mem_nil later
    · next other =>
      refine ih ?_ among
      simp [unbroken, Ne.symm other]

/-! ## Reading what is written -/

theorem ten_eq : (10 : UInt8) = .ofNat '\n'.toNat := rfl

theorem thirteen_eq : (13 : UInt8) = .ofNat '\r'.toNat := rfl

theorem break_notMem_port (port : UInt16) {c : Char} (noDigit : ¬c.isDigit) :
    c ∉ Nat.toDigits 10 port.toNat := fun among =>
  noDigit (Nat.isDigit_of_mem_toDigits (by decide) (by decide) among)

namespace FileLine

theorem lineFeed_notMem {line : FileLine} (fits : ∀ target ∈ line.target?, target.FitsLine) :
    10 ∉ toUtf8 line.text := by
  rw [ten_eq, mem_toUtf8_iff (by decide)]
  cases line with
  | target entry =>
    have unbroken := (fits entry rfl).unbroken
    have port := break_notMem_port entry.port (show ¬ '\n'.isDigit by decide)
    simp [text, Target.display, unbroken, port]
  | comment text unbroken => simp [FileLine.text, unbroken.1]
  | blank => simp [text]

theorem getLast?_ne_return (line : FileLine) : (toUtf8 line.text).getLast? ≠ some 13 := by
  intro last
  cases line with
  | target entry =>
    have colon : UInt8.ofNat ':'.toNat ∈ toUtf8 (":" ++ toString entry.port.toNat) :=
      (mem_toUtf8_iff (by decide) _).mpr (by simp)
    rw [text, Target.display, String.append_assoc, toUtf8_append,
      List.getLast?_append_of_ne_nil _ (List.ne_nil_of_mem colon)] at last
    have among := List.mem_of_getLast? last
    rw [thirteen_eq, mem_toUtf8_iff (by decide)] at among
    have port := break_notMem_port entry.port (show ¬ '\r'.isDigit by decide)
    simp [port] at among
  | comment text unbroken =>
    have among := List.mem_of_getLast? last
    rw [thirteen_eq, mem_toUtf8_iff (by decide)] at among
    simp [FileLine.text, unbroken.2] at among
  | blank => simp [text, toUtf8_eq_flatMap] at last

theorem not_skipped {entry : Target} (noComment : entry.host.toList.head? ≠ some '#') :
    ¬(entry.display = "" ∨ entry.display.toList.head? = some '#') := by
  rintro (blank | comment)
  · have chars := congrArg String.toList blank
    simp [Target.display] at chars
  · cases host : entry.host.toList with
    | nil => simp [Target.display, host] at comment
    | cons c rest =>
      simp only [Target.display, String.toList_append, host, List.cons_append, List.head?_cons,
        Option.some.injEq] at comment
      simp [host, comment] at noComment

end FileLine

theorem parseLines_writeLines {lines : List (FileLine × Bool)}
    (fits : ∀ target ∈ targetsOf lines, target.FitsLine) (defaultPort : Option UInt16)
    (lineNo : Nat) :
    parseLines defaultPort lineNo (readLines [] (writeLines lines)) = .ok (targetsOf lines) := by
  induction lines generalizing lineNo with
  | nil => rfl
  | cons first lines ih =>
    obtain ⟨line, carriageReturn⟩ := first
    have own : ∀ target ∈ line.target?, target.FitsLine := fun target isTarget =>
      fits target (List.mem_filterMap.mpr ⟨_, List.mem_cons_self, isTarget⟩)
    have later := ih fun target among => by
      obtain ⟨other, membership, isTarget⟩ := List.mem_filterMap.mp among
      exact fits target
        (List.mem_filterMap.mpr ⟨other, List.mem_cons_of_mem _ membership, isTarget⟩)
    rw [writeLines, List.flatMap_cons, ← writeLines,
      readLines_lineEnd (FileLine.lineFeed_notMem own) line.getLast?_ne_return, parseLines,
      fromUtf8_toUtf8]
    cases line with
    | target entry =>
      simp only [FileLine.text, if_neg (FileLine.not_skipped (own entry rfl).noComment),
        parseSingleTarget_display, later]
      rfl
    | comment text unbroken =>
      have skipped : "#" ++ text = "" ∨ ("#" ++ text).toList.head? = some '#' := .inr (by simp)
      simp only [FileLine.text, if_pos skipped, later]
      rfl
    | blank =>
      simp only [FileLine.text, true_or, if_true, later]
      rfl

/-! ## What can be read at all -/

theorem host_isPrefix_of_parseSingleTarget {entry : String} {defaultPort : Option UInt16}
    {target : Target} (parsed : parseSingleTarget entry defaultPort = .ok target) :
    target.host.toList <+: entry.toList := by
  simp only [parseSingleTarget] at parsed
  split at parsed
  · split at parsed
    · cases parsed
      exact List.prefix_rfl
    · cases parsed
  · next host port split =>
    split at parsed
    · cases parsed
    · cases parsed
      rw [(split_of_rsplitOnce split).1]
      exact List.prefix_append _ _

theorem exists_entry {Reads : String → Target → Prop} {entries : List String}
    {targets : List Target} (read : entries.Forall₂ Reads targets) {target : Target}
    (among : target ∈ targets) : ∃ entry ∈ entries, Reads entry target := by
  induction read with
  | nil => cases among
  | cons first _ ih =>
    rcases List.mem_cons.mp among with rfl | later
    · exact ⟨_, List.mem_cons_self, first⟩
    · obtain ⟨entry, membership, reads⟩ := ih later
      exact ⟨entry, List.mem_cons_of_mem _ membership, reads⟩

/-- Every target that is read from a file stands in one line and not in a comment. -/
theorem fitsLine_of_getTargets {content : Bytes} {defaultPort : Option UInt16}
    {targets : List Target} (read : getTargets ⟨none, some (.ok content)⟩ defaultPort = .ok targets)
    {target : Target} (among : target ∈ targets) : target.FitsLine := by
  obtain ⟨entry, isEntry, parsed⟩ := exists_entry (forall₂_of_getTargets read) among
  obtain ⟨kept, noComment⟩ := List.mem_filter.mp isEntry
  obtain ⟨bytes, isLine, decoded⟩ := List.mem_filterMap.mp kept
  have unbroken : '\n' ∉ entry.toList := by
    rw [← mem_toUtf8_iff (by decide), toUtf8_of_fromUtf8 decoded]
    exact lineFeed_notMem_readLines List.not_mem_nil isLine
  have start := host_isPrefix_of_parseSingleTarget parsed
  refine ⟨fun broken => unbroken (start.subset broken), fun comment => ?_⟩
  obtain ⟨behind, split⟩ := start
  rw [← split, List.head?_append, comment] at noComment
  simp at noComment

/-- A list of targets is read back from its file exactly if every host fits into its line. -/
theorem getTargets_writeLines_iff (lines : List (FileLine × Bool)) (defaultPort : Option UInt16) :
    getTargets ⟨none, some (.ok (writeLines lines))⟩ defaultPort = .ok (targetsOf lines) ↔
      ∀ target ∈ targetsOf lines, target.FitsLine :=
  ⟨fun read _ among => fitsLine_of_getTargets read among,
    fun fits => parseLines_writeLines fits defaultPort 0⟩

end PqcUtils.Scan

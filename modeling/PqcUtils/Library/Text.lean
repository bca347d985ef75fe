import PqcUtils.Library.Bytes
import Mathlib.Data.List.TakeDrop
import Mathlib.Data.List.TakeWhile
import Mathlib.Data.Nat.Basic

/-!
# Text

UTF-8 decoding, splitting at a separator, and the decimal and hexadecimal
digits that integers are printed with and read from. `readDigits` is the usual
accumulator loop; `readDigits_toDigits` says that it undoes printing.
-/

namespace PqcUtils.Text

/-- `str::from_utf8`. -/
def fromUtf8 (bytes : Bytes) : Option String := String.fromUTF8? bytes.toByteArray

/-- `str::as_bytes`. -/
def toUtf8 (text : String) : Bytes := text.toByteArray.data.toList

theorem fromUtf8_toUtf8 (text : String) : fromUtf8 (toUtf8 text) = some text := by
  have bytes : (toUtf8 text).toByteArray = text.toByteArray := by
    apply ByteArray.ext
    rw [List.data_toByteArray, toUtf8, Array.toArray_toList]
  rw [fromUtf8, bytes, String.fromUTF8?, dif_pos text.isValidUTF8]
  rfl

theorem toUtf8_of_fromUtf8 {bytes : Bytes} {text : String} (decoded : fromUtf8 bytes = some text) :
    toUtf8 text = bytes := by
  simp only [fromUtf8, String.fromUTF8?] at decoded
  split at decoded
  · cases decoded
    simp [toUtf8, String.fromUTF8, List.data_toByteArray]
  · cases decoded

theorem toUtf8_eq_flatMap (text : String) :
    toUtf8 text = text.toList.flatMap String.utf8EncodeChar := by
  rw [toUtf8, ← String.utf8Encode_toList, List.utf8Encode, List.data_toByteArray,
    List.toList_toArray]

theorem toUtf8_append (text more : String) :
    toUtf8 (text ++ more) = toUtf8 text ++ toUtf8 more := by
  simp [toUtf8_eq_flatMap]

theorem mem_utf8EncodeChar_iff {c d : Char} (ascii : c.toNat < 128) :
    UInt8.ofNat c.toNat ∈ String.utf8EncodeChar d ↔ d = c := by
  have same : d = c ↔ d.toNat = c.toNat := Char.toNat_inj.symm
  have byte (n : Nat) : UInt8.ofNat c.toNat = UInt8.ofNat n ↔ c.toNat = n % 256 := by
    rw [← UInt8.toNat_inj, UInt8.toNat_ofNat', UInt8.toNat_ofNat', Nat.mod_eq_of_lt (by omega)]
  rw [same, String.utf8EncodeChar, show d.val.toNat = d.toNat from rfl]
  split
  · simp only [List.mem_singleton, byte]
    omega
  · split
    · simp only [List.mem_cons, List.not_mem_nil, or_false, byte]
      omega
    · split <;>
      · simp only [List.mem_cons, List.not_mem_nil, or_false, byte]
        omega

theorem mem_toUtf8_iff {c : Char} (ascii : c.toNat < 128) (text : String) :
    UInt8.ofNat c.toNat ∈ toUtf8 text ↔ c ∈ text.toList := by
  simp [toUtf8_eq_flatMap, List.mem_flatMap, mem_utf8EncodeChar_iff ascii]

/-- `str::split` at a character. The empty text has one empty part. -/
def splitOn (separator : Char) (text : String) : List String :=
  (text.toList.splitOn separator).map String.ofList

theorem nil_mem_splitOn_iff {separator : Char} {chars : List Char} :
    [] ∈ chars.splitOn separator ↔
      chars = [] ∨ chars.head? = some separator ∨ [] ∈ (chars.splitOn separator).tail := by
  cases chars with
  | nil => simp
  | cons c chars =>
    rw [List.splitOn_cons_eq_if_modifyHead]
    by_cases same : c = separator
    · simp [same]
    · cases parts : chars.splitOn separator with
      | nil => simp [same]
      | cons first others => simp [same]

/-- Behind the first part, an empty one stands between two separators or behind the last one. -/
theorem nil_mem_tail_splitOn_iff {separator : Char} {chars : List Char} :
    [] ∈ (chars.splitOn separator).tail ↔
      chars.getLast? = some separator ∨ [separator, separator] <:+: chars := by
  induction chars with
  | nil => simp
  | cons c chars ih =>
    rw [List.splitOn_cons_eq_if_modifyHead, List.infix_cons_iff, List.cons_prefix_cons]
    by_cases same : c = separator
    · rw [if_pos (beq_iff_eq.mpr same), List.tail_cons, nil_mem_splitOn_iff, ih, same]
      cases chars with
      | nil => simp
      | cons next chars =>
        simp [List.cons_prefix_cons, eq_comm, or_left_comm]
    · rw [if_neg (by simpa using same), List.tail_modifyHead, ih]
      cases chars with
      | nil => simp [same]
      | cons next chars => simp [Ne.symm same]

theorem empty_mem_splitOn_iff {separator : Char} {text : String} :
    "" ∈ splitOn separator text ↔
      text = "" ∨ text.toList.head? = some separator ∨ text.toList.getLast? = some separator ∨
        [separator, separator] <:+: text.toList := by
  rw [← nil_mem_tail_splitOn_iff, ← String.toList_eq_nil_iff, ← nil_mem_splitOn_iff, splitOn]
  simp only [List.mem_map, String.ofList_eq_empty_iff, exists_eq_right]

/-- `str::replace` of a character. -/
def replaceChar (c : Char) (replacement text : String) : String :=
  .ofList (text.toList.flatMap fun x => if x = c then replacement.toList else [x])

theorem toList_replaceChar (c : Char) (replacement text : String) :
    (replaceChar c replacement text).toList =
      text.toList.flatMap fun x => if x = c then replacement.toList else [x] :=
  String.toList_ofList

/-- The parts before and behind the last separator, if there is one. -/
def rsplitOnce (separator : Char) (text : String) : Option (String × String) :=
  let (behind, before) := text.toList.reverse.span (· ≠ separator)
  match before with
  | [] => none
  | _ :: before => some (String.ofList before.reverse, String.ofList behind.reverse)

theorem split_of_rsplitOnce {separator : Char} {text before behind : String}
    (split : rsplitOnce separator text = some (before, behind)) :
    text.toList = before.toList ++ separator :: behind.toList ∧ separator ∉ behind.toList := by
  have parts := List.takeWhile_append_dropWhile (p := (· ≠ separator)) (l := text.toList.reverse)
  have last := List.head?_dropWhile_not (· ≠ separator) text.toList.reverse
  have different : separator ∉ text.toList.reverse.takeWhile (· ≠ separator) := fun membership =>
    by simpa using List.mem_takeWhile_imp membership
  rw [rsplitOnce, List.span_eq_takeWhile_dropWhile] at split
  revert split
  generalize text.toList.reverse.dropWhile (· ≠ separator) = rest at parts last
  cases rest with
  | nil => simp
  | cons c front =>
    simp only [List.head?_cons, ne_eq, decide_not, Bool.not_eq_false', decide_eq_true_eq] at last
    simp only [Option.some.injEq, Prod.mk.injEq]
    rintro ⟨rfl, rfl⟩
    have forward := congrArg List.reverse parts
    rw [List.reverse_reverse] at forward
    exact ⟨forward.symm.trans (by simp [last]), by simpa using different⟩

theorem span_reverse_of_split {Item : Type*} [DecidableEq Item] {separator : Item}
    (before : List Item) {behind : List Item} (last : separator ∉ behind) :
    (before ++ separator :: behind).reverse.span (· ≠ separator) =
      (behind.reverse, separator :: before.reverse) := by
  have reversed : (before ++ separator :: behind).reverse =
      behind.reverse ++ separator :: before.reverse := by simp
  have different : ∀ item ∈ behind.reverse, decide (item ≠ separator) = true := by
    intro item membership
    rw [decide_eq_true_eq]
    rintro rfl
    exact last (List.mem_reverse.mp membership)
  rw [List.span_eq_takeWhile_dropWhile, reversed, List.takeWhile_append_of_pos different,
    List.dropWhile_append_of_pos different]
  simp

theorem span_reverse_of_notMem {Item : Type*} [DecidableEq Item] {separator : Item}
    {items : List Item} (absent : separator ∉ items) :
    items.reverse.span (· ≠ separator) = (items.reverse, []) := by
  have different : ∀ item ∈ items.reverse, decide (item ≠ separator) = true := by
    intro item membership
    rw [decide_eq_true_eq]
    rintro rfl
    exact absent (List.mem_reverse.mp membership)
  rw [List.span_eq_takeWhile_dropWhile, List.takeWhile_eq_self_iff.mpr different,
    List.dropWhile_eq_nil_iff.mpr different]

theorem rsplitOnce_of_split {separator : Char} {text before behind : String}
    (split : text.toList = before.toList ++ separator :: behind.toList)
    (last : separator ∉ behind.toList) : rsplitOnce separator text = some (before, behind) := by
  rw [rsplitOnce, split, span_reverse_of_split _ last]
  simp

theorem not_mem_of_rsplitOnce {separator : Char} {text : String}
    (whole : rsplitOnce separator text = none) : separator ∉ text.toList := by
  intro membership
  have different : ¬text.toList.reverse.dropWhile (· ≠ separator) = [] := by
    simpa [List.dropWhile_eq_nil_iff] using membership
  rw [rsplitOnce, List.span_eq_takeWhile_dropWhile] at whole
  revert whole
  generalize text.toList.reverse.dropWhile (· ≠ separator) = rest at different
  cases rest with
  | nil => exact absurd rfl different
  | cons c front => simp

/-! ## Digits -/

/-- `char::to_digit`, for radix ten and sixteen. -/
def toDigit (radix : Nat) (c : Char) : Option Nat :=
  let digit :=
    if '0' ≤ c ∧ c ≤ '9' then some (c.toNat - '0'.toNat)
    else if 'a' ≤ c ∧ c ≤ 'f' then some (c.toNat - 'a'.toNat + 10)
    else if 'A' ≤ c ∧ c ≤ 'F' then some (c.toNat - 'A'.toNat + 10)
    else none
  digit.filter (· < radix)

theorem toDigit_digitChar {radix digit : Nat} (small : digit < radix) (radixBound : radix ≤ 16) :
    toDigit radix digit.digitChar = some digit := by
  have value : ∀ d < 16, (toDigit 16 d.digitChar) = some d := by decide
  have unfiltered := value digit (by omega)
  simp only [toDigit, Option.filter_eq_some_iff] at unfiltered ⊢
  exact ⟨unfiltered.1, by simpa using small⟩

/-- Read digits while there are any: the value, how many there were, and the rest. `admits`
decides after each digit whether the value and the count are still acceptable. -/
def readDigits (radix : Nat) (admits : Nat → Nat → Bool) :
    Nat → Nat → List Char → Option (Nat × Nat × List Char)
  | value, count, [] => some (value, count, [])
  | value, count, c :: rest =>
    match toDigit radix c with
    | none => some (value, count, c :: rest)
    | some digit =>
      if admits (value * radix + digit) (count + 1) then
        readDigits radix admits (value * radix + digit) (count + 1) rest
      else none

theorem readDigits_stop {radix : Nat} (admits : Nat → Nat → Bool) (value count : Nat)
    {rest : List Char} (stops : rest.head?.bind (toDigit radix) = none) :
    readDigits radix admits value count rest = some (value, count, rest) := by
  cases rest with
  | nil => rfl
  | cons c tail =>
    simp only [List.head?_cons, Option.bind_some] at stops
    simp [readDigits, stops]

theorem readDigits_digitChar {radix digit : Nat} (small : digit < radix) (radixBound : radix ≤ 16)
    {admits : Nat → Nat → Bool} {value count : Nat}
    (admitted : admits (value * radix + digit) (count + 1) = true) (rest : List Char) :
    readDigits radix admits value count (digit.digitChar :: rest) =
      readDigits radix admits (value * radix + digit) (count + 1) rest := by
  simp [readDigits, toDigit_digitChar small radixBound, admitted]

/-- Reading printed digits yields the printed number, whatever follows. -/
theorem readDigits_toDigits {radix : Nat} (large : 1 < radix) (radixBound : radix ≤ 16)
    (admits : Nat → Nat → Bool) (n : Nat) (rest : List Char)
    (admitted : ∀ value count, value ≤ n → count ≤ (Nat.toDigits radix n).length →
      admits value count = true) :
    readDigits radix admits 0 0 (Nat.toDigits radix n ++ rest) =
      readDigits radix admits n (Nat.toDigits radix n).length rest := by
  induction n using Nat.strongRecOn generalizing rest with
  | ind n ih =>
    by_cases single : n < radix
    · rw [Nat.toDigits_of_lt_base single] at admitted ⊢
      have first : admits (0 * radix + n) (0 + 1) = true :=
        admitted _ _ (by omega) (by simp)
      simpa using readDigits_digitChar single radixBound first rest
    · -- The last digit is peeled off; the digits before it are those of the quotient.
      have positive : 0 < n := by omega
      have split := Nat.toDigits_of_base_le large (Nat.le_of_not_lt single)
      have digit : n % radix < radix := Nat.mod_lt _ (by omega)
      have recombined : n / radix * radix + n % radix = n := Nat.div_add_mod' n radix
      have smaller : n / radix < n := Nat.div_lt_self positive large
      rw [split, List.length_append, List.length_singleton] at admitted
      rw [split, List.append_assoc, ih (n / radix) smaller _ fun value count below short =>
        admitted value count (by omega) (by omega), List.singleton_append,
        readDigits_digitChar digit radixBound
          (admitted _ _ (by omega) (by omega)), recombined]
      simp

def Consumes (Kind : Char → Prop) (input rest : List Char) : Prop :=
  ∃ used, input = used ++ rest ∧ ∀ c ∈ used, Kind c

namespace Consumes

variable {Kind : Char → Prop} {input middle rest : List Char}

theorem refl (input : List Char) : Consumes Kind input input := ⟨[], rfl, nofun⟩

theorem cons {c : Char} (kind : Kind c) (consumes : Consumes Kind input rest) :
    Consumes Kind (c :: input) rest := by
  obtain ⟨used, rfl, kinds⟩ := consumes
  exact ⟨c :: used, rfl, List.forall_mem_cons.mpr ⟨kind, kinds⟩⟩

theorem trans (first : Consumes Kind input middle) (second : Consumes Kind middle rest) :
    Consumes Kind input rest := by
  obtain ⟨used, rfl, kinds⟩ := first
  obtain ⟨used', rfl, kinds'⟩ := second
  exact ⟨used ++ used', (List.append_assoc ..).symm, List.forall_mem_append.mpr ⟨kinds, kinds'⟩⟩

theorem mono {Other : Char → Prop} (implies : ∀ c, Kind c → Other c)
    (consumes : Consumes Kind input rest) : Consumes Other input rest := by
  obtain ⟨used, split, kinds⟩ := consumes
  exact ⟨used, split, fun c membership => implies c (kinds c membership)⟩

theorem suffix (consumes : Consumes Kind input rest) : rest <:+ input := by
  obtain ⟨used, split, -⟩ := consumes
  exact ⟨used, split.symm⟩

end Consumes

theorem readDigits_consumes {radix : Nat} {admits : Nat → Nat → Bool} {input rest : List Char}
    {value count value' count' : Nat}
    (read : readDigits radix admits value count input = some (value', count', rest)) :
    Consumes (fun c => toDigit radix c ≠ none) input rest := by
  induction input generalizing value count with
  | nil =>
    simp only [readDigits, Option.some.injEq, Prod.mk.injEq] at read
    rw [← read.2.2]
    exact .refl []
  | cons c tail ih =>
    simp only [readDigits] at read
    split at read
    · simp only [Option.some.injEq, Prod.mk.injEq] at read
      rw [← read.2.2]
      exact .refl _
    · next digit found =>
      split at read
      · exact .cons (by simp [found]) (ih read)
      · cases read

/-- `str::parse` at an unsigned type of so many bits: an optional sign, digits, nothing else. -/
def parseUnsigned (bits : Nat) (text : String) : Option Nat :=
  let digits := match text.toList with
    | '+' :: rest => rest
    | chars => chars
  match digits with
  | [] => none
  | _ =>
    match readDigits 10 (fun value _ => value < 2 ^ bits) 0 0 digits with
    | some (value, _, []) => some value
    | _ => none

theorem parseUnsigned_toString {bits n : Nat} (fits : n < 2 ^ bits) :
    parseUnsigned bits (toString n) = some n := by
  have text : (toString n).toList = Nat.toDigits 10 n := by simp
  have read : readDigits 10 (fun value _ => value < 2 ^ bits) 0 0 (Nat.toDigits 10 n) =
      some (n, (Nat.toDigits 10 n).length, []) := by
    have inRange : ∀ value count, value ≤ n → count ≤ (Nat.toDigits 10 n).length →
        decide (value < 2 ^ bits) = true := by
      intro value count below _
      simpa using Nat.lt_of_le_of_lt below fits
    have digits := readDigits_toDigits (by decide) (by decide) _ n [] inRange
    rw [List.append_nil] at digits
    rw [digits, readDigits_stop _ _ _ rfl]
  rw [parseUnsigned, text]
  cases chars : Nat.toDigits 10 n with
  | nil => exact absurd chars Nat.toDigits_ne_nil
  | cons c rest =>
    have noSign : c ≠ '+' := by
      rintro rfl
      have digit : Char.isDigit '+' = true :=
        Nat.isDigit_of_mem_toDigits (by decide) (by decide) (chars ▸ List.mem_cons_self)
      simp [Char.isDigit] at digit
    rw [chars] at read
    simp [noSign, read]

theorem digits_of_parseUnsigned {bits value : Nat} {text : String}
    (parsed : parseUnsigned bits text = some value) :
    ∀ c ∈ text.toList, c = '+' ∨ toDigit 10 c ≠ none := by
  have digits {chars : List Char} {result count : Nat}
      (read : readDigits 10 (fun value _ => value < 2 ^ bits) 0 0 chars =
        some (result, count, [])) : ∀ c ∈ chars, toDigit 10 c ≠ none := by
    obtain ⟨used, split, kinds⟩ := readDigits_consumes read
    rw [split, List.append_nil]
    exact kinds
  unfold parseUnsigned at parsed
  simp only at parsed
  split at parsed
  · cases parsed
  · split at parsed
    · next read =>
      have kinds := digits read
      split at kinds
      · next rest chars =>
        rw [chars]
        exact List.forall_mem_cons.mpr ⟨.inl rfl, fun c membership => .inr (kinds c membership)⟩
      · exact fun c membership => .inr (kinds c membership)
    · cases parsed

theorem digitChar_ne_zero : ∀ digit < 16, 0 < digit → Nat.digitChar digit ≠ '0' := by decide

theorem head?_toDigits_ne_zero {radix n : Nat} (large : 1 < radix) (radixBound : radix ≤ 16)
    (positive : 0 < n) : (Nat.toDigits radix n).head? ≠ some '0' := by
  induction n using Nat.strongRecOn with
  | ind n ih =>
    by_cases single : n < radix
    · rw [Nat.toDigits_of_lt_base single]
      simpa using digitChar_ne_zero n (by omega) positive
    · have split := Nat.toDigits_of_base_le large (Nat.le_of_not_lt single)
      have quotient : 0 < n / radix := Nat.div_pos (by omega) (by omega)
      have earlier := ih (n / radix) (Nat.div_lt_self positive large) quotient
      rw [split]
      cases digits : Nat.toDigits radix (n / radix) with
      | nil => exact absurd digits Nat.toDigits_ne_nil
      | cons c tail => simpa [digits] using earlier

end PqcUtils.Text

import PqcUtils.Net.Address

/-!
# Printed addresses read back

Every address is read back from its printed form, with or without text behind
it. Printing is therefore injective. An IPv6 address followed by a colon and a
port is not a socket address unless the address stands in brackets.
-/

namespace PqcUtils.Net

open Bytes Text

/-! ## Numbers -/

def Stops (radix : Nat) (rest : List Char) : Prop := rest.head?.bind (toDigit radix) = none

theorem toDigit_weaken {c : Char} (stops : toDigit 16 c = none) : toDigit 10 c = none := by
  simp only [toDigit, Option.filter_eq_none_iff] at stops ⊢
  intro digit found
  have := stops digit found
  simp only [decide_eq_true_eq] at this ⊢
  omega

theorem Stops.decimal {rest : List Char} (stops : Stops 16 rest) : Stops 10 rest := by
  cases rest with
  | nil => rfl
  | cons c tail => exact toDigit_weaken stops

theorem readNumber_toDigits {radix limit n : Nat} (large : 1 < radix) (radixBound : radix ≤ 16)
    {maxDigits : Option Nat} {allowZeroPrefix : Bool} (small : n < limit)
    (short : ∀ bound, maxDigits = some bound → (Nat.toDigits radix n).length ≤ bound)
    {rest : List Char} (stops : Stops radix rest) :
    readNumber radix maxDigits allowZeroPrefix limit (Nat.toDigits radix n ++ rest) =
      some (n, rest) := by
  have counted : 0 < (Nat.toDigits radix n).length := Nat.length_toDigits_pos
  have leading : 1 < (Nat.toDigits radix n).length →
      (Nat.toDigits radix n ++ rest).head? ≠ some '0' := by
    intro several
    have positive : 0 < n := by
      by_contra zero
      rw [show n = 0 by omega, Nat.toDigits_zero] at several
      simp at several
    cases digits : Nat.toDigits radix n with
    | nil => exact absurd digits Nat.toDigits_ne_nil
    | cons c tail => simpa [digits] using head?_toDigits_ne_zero large radixBound positive
  unfold readNumber
  simp only
  rw [readDigits_toDigits large radixBound _ n rest, readDigits_stop _ _ _ stops]
  · simp only [small, if_true]
    rw [if_neg (by omega), if_neg]
    simp only [Bool.and_eq_true, decide_eq_true_eq, not_and]
    rintro ⟨-, zero⟩
    exact fun several => leading several zero
  · intro value count below few
    cases maxDigits with
    | none => simpa using Nat.lt_of_le_of_lt below small
    | some bound => simpa using Nat.le_trans few (short bound rfl)

theorem readNumber_stops {radix limit : Nat} {maxDigits : Option Nat} {allowZeroPrefix : Bool}
    {rest : List Char} (stops : Stops radix rest) :
    readNumber radix maxDigits allowZeroPrefix limit rest = none := by
  unfold readNumber
  simp [readDigits_stop _ _ _ stops]

/-! ## IPv4 addresses -/

theorem readOctet_toDigits (octet : UInt8) {rest : List Char} (stops : Stops 10 rest) :
    readOctet 0 (Nat.toDigits 10 octet.toNat ++ rest) = some (octet.toNat, rest) := by
  have bound := octet.toNat_lt
  simp only [readOctet, readSeparator, Nat.lt_irrefl, if_false]
  apply readNumber_toDigits (by decide) (by decide) bound _ stops
  rintro digits ⟨rfl⟩
  exact (Nat.length_toDigits_le_iff (by decide) (by decide)).mpr (by omega)

theorem readOctet_separator (index : Nat) (input : List Char) :
    readOctet (index + 1) ('.' :: input) = readOctet 0 input := by
  simp [readOctet, readSeparator, readGivenChar]

theorem readIpv4Addr_chars (ip : Ipv4Addr) {rest : List Char} (stops : Stops 10 rest) :
    readIpv4Addr (ip.chars ++ rest) = some (ip, rest) := by
  have dot : ∀ tail, Stops 10 ('.' :: tail) := fun _ => rfl
  simp only [readIpv4Addr, Ipv4Addr.chars, List.append_assoc, List.cons_append,
    readOctet_toDigits ip.a (dot _), Option.bind_eq_bind, Option.bind_some,
    readOctet_separator, readOctet_toDigits ip.b (dot _), readOctet_toDigits ip.c (dot _),
    readOctet_toDigits ip.d stops, UInt8.ofNat_toNat]
  rfl

def afterHex (input : List Char) : List Char := input.dropWhile fun c => (toDigit 16 c).isSome

theorem afterHex_of_stops {rest : List Char} (stops : Stops 16 rest) : afterHex rest = rest := by
  cases rest with
  | nil => rfl
  | cons c tail =>
    have noDigit : toDigit 16 c = none := stops
    simp [afterHex, noDigit]

theorem afterHex_readDigits {radix : Nat} (radixBound : radix ≤ 16) {admits : Nat → Nat → Bool}
    {input rest : List Char} {value count value' count' : Nat}
    (result : readDigits radix admits value count input = some (value', count', rest)) :
    afterHex input = afterHex rest := by
  induction input generalizing value count with
  | nil =>
    simp only [readDigits, Option.some.injEq, Prod.mk.injEq] at result
    rw [result.2.2]
  | cons c tail ih =>
    simp only [readDigits] at result
    split at result
    · simp only [Option.some.injEq, Prod.mk.injEq] at result
      rw [result.2.2]
    · next digit found =>
      split at result
      · have isHex : (toDigit 16 c).isSome := by
          simp only [toDigit, Option.filter_eq_some_iff, decide_eq_true_eq] at found
          rw [Option.isSome_iff_exists]
          refine ⟨digit, ?_⟩
          simp only [toDigit, Option.filter_eq_some_iff, decide_eq_true_eq]
          exact ⟨found.1, by omega⟩
        rw [← ih result]
        simp [afterHex, isHex]
      · cases result

theorem afterHex_toDigits (n : Nat) {rest : List Char} (stops : Stops 16 rest) :
    afterHex (Nat.toDigits 16 n ++ rest) = rest := by
  have read := readDigits_toDigits (by decide : 1 < 16) (by decide) (fun _ _ => true) n rest
    fun _ _ _ _ => rfl
  rw [readDigits_stop _ _ _ stops] at read
  rw [afterHex_readDigits (by decide) read, afterHex_of_stops stops]

theorem readIpv4Addr_eq_none {input : List Char} (noDot : (afterHex input).head? ≠ some '.') :
    readIpv4Addr input = none := by
  by_contra succeeds
  obtain ⟨⟨ip, rest⟩, result⟩ := Option.ne_none_iff_exists'.mp succeeds
  simp only [readIpv4Addr, Option.bind_eq_bind, Option.bind_eq_some_iff] at result
  obtain ⟨⟨a, afterA⟩, first, ⟨b, afterB⟩, second, -⟩ := result
  have dotted : ∃ tail, afterA = '.' :: tail := by
    simp only [readOctet, readSeparator, Nat.one_pos, if_true,
      Option.bind_eq_some_iff] at second
    obtain ⟨tail, given, -⟩ := second
    cases afterA with
    | nil => cases given
    | cons c tail' =>
      simp only [readGivenChar] at given
      split at given
      · next same => exact ⟨tail', by rw [same]⟩
      · cases given
  obtain ⟨tail, rfl⟩ := dotted
  apply noDot
  simp only [readOctet, readSeparator, Nat.lt_irrefl, if_false, readNumber] at first
  split at first
  · cases first
  · next value count remaining read =>
    have remainingEq : remaining = '.' :: tail := by
      split at first
      · cases first
      · split at first
        · cases first
        · split at first
          · simp only [Option.some.injEq, Prod.mk.injEq] at first
            exact first.2
          · cases first
    have stops : Stops 16 ('.' :: tail) := rfl
    rw [afterHex_readDigits (by decide) read, remainingEq, afterHex_of_stops stops]
    rfl

/-! ## IPv6 addresses -/

/-- Text that ends a list of groups: it starts with neither a further group nor a dot. -/
structure Ends (rest : List Char) : Prop where
  stops : Stops 16 rest
  noDot : rest.head? ≠ some '.'
  noGroup : ∀ tail, rest = ':' :: tail → Stops 16 tail

theorem readIpv4Addr_stops {rest : List Char} (stops : Stops 16 rest) :
    readIpv4Addr rest = none := by
  simp [readIpv4Addr, readOctet, readSeparator, readNumber_stops stops.decimal]

theorem readSeparator_stops {Value : Type} {inner : List Char → Option (Value × List Char)}
    (fails : ∀ tail, Stops 16 tail → inner tail = none) (index : Nat) {rest : List Char}
    (ends : Ends rest) : readSeparator ':' index inner rest = none := by
  unfold readSeparator
  split
  · cases rest with
    | nil => rfl
    | cons c tail =>
      by_cases colon : c = ':'
      · subst colon
        simpa [readGivenChar] using fails tail (ends.noGroup tail rfl)
      · simp [readGivenChar, colon]
  · exact fails rest ends.stops

theorem readGroups_ends (room index : Nat) {rest : List Char} (ends : Ends rest) :
    readGroups room index rest = ([], false, rest) := by
  cases room with
  | zero => rfl
  | succ room =>
    have noIpv4 :
        (if 0 < room then readSeparator ':' index readIpv4Addr rest else none) = none := by
      split
      · exact readSeparator_stops (fun _ => readIpv4Addr_stops) index ends
      · rfl
    have noNumber : readSeparator ':' index (readNumber 16 (some 4) true 65536) rest = none :=
      readSeparator_stops (fun _ => readNumber_stops) index ends
    simp only [readGroups, noIpv4, noNumber]

def separated (groups : List UInt16) : List Char :=
  groups.flatMap fun segment => ':' :: Nat.toDigits 16 segment.toNat

theorem separated_append_head (groups : List UInt16) {rest : List Char} (ends : Ends rest) :
    Stops 16 (separated groups ++ rest) ∧ (separated groups ++ rest).head? ≠ some '.' := by
  cases groups with
  | nil => exact ⟨ends.stops, ends.noDot⟩
  | cons group groups =>
    constructor
    · simp only [separated, List.flatMap_cons, List.cons_append, Stops, List.head?_cons]
      rfl
    · simp [separated]

theorem readGroups_group (room index : Nat) (group : UInt16) (input after : List Char)
    (enters : ∀ {Value : Type} (inner : List Char → Option (Value × List Char)),
      readSeparator ':' index inner input = inner (Nat.toDigits 16 group.toNat ++ after))
    (stops : Stops 16 after) (noDot : after.head? ≠ some '.') :
    readGroups (room + 1) index input =
      (group :: (readGroups room (index + 1) after).1, (readGroups room (index + 1) after).2) := by
  have noIpv4 : readIpv4Addr (Nat.toDigits 16 group.toNat ++ after) = none := by
    apply readIpv4Addr_eq_none
    rwa [afterHex_toDigits _ stops]
  have number : readNumber 16 (some 4) true 65536 (Nat.toDigits 16 group.toNat ++ after) =
      some (group.toNat, after) := by
    have bound := group.toNat_lt
    apply readNumber_toDigits (by decide) (by decide) bound _ stops
    rintro digits ⟨rfl⟩
    exact (Nat.length_toDigits_le_iff (by decide) (by decide)).mpr (by omega)
  simp only [readGroups, enters, noIpv4, number, ite_self, UInt16.ofNat_toNat]

theorem readGroups_separated (room index : Nat) (groups : List UInt16)
    (fits : groups.length ≤ room) {rest : List Char} (ends : Ends rest) :
    readGroups room (index + 1) (separated groups ++ rest) = (groups, false, rest) := by
  induction groups generalizing room index with
  | nil => exact readGroups_ends room (index + 1) ends
  | cons group groups ih =>
    obtain ⟨room, rfl⟩ : ∃ less, room = less + 1 := ⟨room - 1, by simp at fits; omega⟩
    obtain ⟨stops, noDot⟩ := separated_append_head groups ends
    rw [readGroups_group room (index + 1) group _ (separated groups ++ rest) _ stops noDot,
      ih room (index + 1) (by simpa using fits)]
    intro Value inner
    simp [separated, readSeparator, readGivenChar]

theorem readGroups_fmtSubslice (room : Nat) (groups : List UInt16) (fits : groups.length ≤ room)
    {rest : List Char} (ends : Ends rest) :
    readGroups room 0 (fmtSubslice groups ++ rest) = (groups, false, rest) := by
  cases groups with
  | nil => exact readGroups_ends room 0 ends
  | cons group groups =>
    obtain ⟨room, rfl⟩ : ∃ less, room = less + 1 := ⟨room - 1, by simp at fits; omega⟩
    obtain ⟨stops, noDot⟩ := separated_append_head groups ends
    rw [readGroups_group room 0 group _ (separated groups ++ rest) _ stops noDot,
      readGroups_separated room 0 groups (by simpa using fits) ends]
    intro Value inner
    simp [fmtSubslice, separated, readSeparator]

/-- The span covers zero segments only. -/
def IsZeroSpan (segments : List UInt16) (span : Span) : Prop :=
  span.start + span.len ≤ segments.length ∧
    (segments.drop span.start).take span.len = List.replicate span.len 0

theorem IsZeroSpan.empty (segments : List UInt16) : IsZeroSpan segments ⟨0, 0⟩ := by
  simp [IsZeroSpan]

theorem IsZeroSpan.append {segments : List UInt16} {span : Span} (zero : IsZeroSpan segments span)
    (more : List UInt16) : IsZeroSpan (segments ++ more) span := by
  obtain ⟨inside, zeroes⟩ := zero
  refine ⟨by simp; omega, ?_⟩
  rw [List.drop_append_of_le_length (by omega), List.take_append_of_le_length (by simp; omega)]
  exact zeroes

theorem IsZeroSpan.grow {segments : List UInt16} {start len : Nat}
    (zero : IsZeroSpan segments ⟨start, len⟩) (reaches : start + len = segments.length) :
    IsZeroSpan (segments ++ [0]) ⟨start, len + 1⟩ := by
  obtain ⟨inside, zeroes⟩ := zero
  simp only at inside zeroes
  refine ⟨by simp; omega, ?_⟩
  have whole : (segments.drop start).take len = segments.drop start :=
    List.take_of_length_le (by simp; omega)
  rw [whole] at zeroes
  simp only [List.drop_append_of_le_length (show start ≤ segments.length by omega), zeroes,
    List.replicate_succ']
  exact List.take_of_length_le (by simp)

/-- The invariant of the search: both spans are zero, and the current one reaches the position. -/
theorem longestZeroSpan_isZeroSpan (seen rest : List UInt16) {longest current : Span}
    (longestZero : IsZeroSpan seen longest)
    (currentZero : current.len = 0 ∨
      IsZeroSpan seen current ∧ current.start + current.len = seen.length) :
    IsZeroSpan (seen ++ rest) (longestZeroSpan seen.length longest current rest) := by
  induction rest generalizing seen longest current with
  | nil => simpa [longestZeroSpan] using longestZero
  | cons segment rest ih =>
    have position : seen.length + 1 = (seen ++ [segment]).length := by simp
    rw [show seen ++ segment :: rest = seen ++ [segment] ++ rest by simp, longestZeroSpan, position]
    split
    · next isZero =>
      subst isZero
      let grown : Span := ⟨if current.len = 0 then seen.length else current.start, current.len + 1⟩
      have grownZero : IsZeroSpan (seen ++ [0]) grown ∧
          grown.start + grown.len = (seen ++ [0]).length := by
        rcases currentZero with none | ⟨zero, reaches⟩
        · have start : IsZeroSpan seen ⟨seen.length, 0⟩ := by simp [IsZeroSpan]
          simpa [grown, none] using start.grow rfl
        · by_cases none : current.len = 0
          · have start : IsZeroSpan seen ⟨seen.length, 0⟩ := by simp [IsZeroSpan]
            simpa [grown, none] using start.grow rfl
          · refine ⟨by simpa [grown, none] using zero.grow reaches, ?_⟩
            simp [grown, none]
            omega
      have longerZero : IsZeroSpan (seen ++ [0])
          (if grown.len > longest.len then grown else longest) := by
        by_cases longer : grown.len > longest.len
        · simpa only [if_pos longer] using grownZero.1
        · simpa only [if_neg longer] using longestZero.append [0]
      exact ih (seen ++ [0]) longerZero (.inr grownZero)
    · exact ih (seen ++ [segment]) (longestZero.append _) (.inl rfl)

theorem ofGroups_segments (ip : Ipv6Addr) : Ipv6Addr.ofGroups ip.segments = ip := by
  cases ip with
  | mk segments length =>
    simp [Ipv6Addr.ofGroups, length]

theorem toIpv4Mapped_eq_some {segments : List UInt16} {ipv4 : Ipv4Addr}
    (mapped : toIpv4Mapped segments = some ipv4) :
    segments = [0, 0, 0, 0, 0, 0xffff] ++ ipv4.segments := by
  unfold toIpv4Mapped at mapped
  split at mapped
  · simp only [Option.some.injEq] at mapped
    subst mapped
    simp [Ipv4Addr.segments, be16_ofUInt16]
  · cases mapped

theorem ends_colons (tail : List Char) : Ends (':' :: ':' :: tail) where
  stops := rfl
  noDot := by simp
  noGroup := by
    intro rest same
    cases same
    rfl

/-- The two halves around `::`, each read as far as it goes. -/
theorem readIpv6Addr_halves {input between rest : List Char} {head tail : List UInt16}
    {embedded : Bool} (first : readGroups 8 0 input = (head, false, ':' :: ':' :: between))
    (second : readGroups (7 - head.length) 0 between = (tail, embedded, rest))
    (notFull : head.length ≠ 8) :
    readIpv6Addr input =
      some (.ofGroups (head ++ List.replicate (8 - tail.length - head.length) 0 ++ tail),
        rest) := by
  have room : 8 - (head.length + 1) = 7 - head.length := by omega
  simp [readIpv6Addr, first, notFull, readGivenChar, room, second]

theorem readIpv6Addr_compressed (head tail : List UInt16) (short : head.length + tail.length < 8)
    {rest : List Char} (ends : Ends rest) :
    readIpv6Addr (fmtSubslice head ++ ':' :: ':' :: (fmtSubslice tail ++ rest)) =
      some (.ofGroups (head ++ List.replicate (8 - tail.length - head.length) 0 ++ tail), rest) :=
  readIpv6Addr_halves
    (readGroups_fmtSubslice 8 head (by omega) (ends_colons (fmtSubslice tail ++ rest)))
    (readGroups_fmtSubslice _ tail (by omega) ends) (by omega)

theorem readIpv6Addr_mapped (ipv4 : Ipv4Addr) {rest : List Char} (stops : Stops 16 rest) :
    readIpv6Addr ("::ffff:".toList ++ ipv4.chars ++ rest) =
      some (.ofGroups ([0, 0, 0, 0, 0, 0xffff] ++ ipv4.segments), rest) := by
  have colon : Stops 16 (':' :: (ipv4.chars ++ rest)) := rfl
  have embedded : readGroups 6 1 (':' :: (ipv4.chars ++ rest)) = (ipv4.segments, true, rest) := by
    simp [readGroups, readSeparator, readGivenChar, readIpv4Addr_chars ipv4 stops.decimal]
  have second := readGroups_group 6 0 0xffff ("ffff:".toList ++ ipv4.chars ++ rest)
    (':' :: (ipv4.chars ++ rest)) (fun _ => by simp [readSeparator]; rfl) colon (by simp)
  rw [embedded] at second
  exact readIpv6Addr_halves
    (readGroups_ends 8 0 (ends_colons ("ffff:".toList ++ ipv4.chars ++ rest))) second (by simp)

theorem readIpv6Addr_chars (ip : Ipv6Addr) {rest : List Char} (ends : Ends rest) :
    readIpv6Addr (ip.chars ++ rest) = some (ip, rest) := by
  unfold Ipv6Addr.chars
  split
  · next ipv4 mapped =>
    rw [readIpv6Addr_mapped ipv4 ends.stops, ← toIpv4Mapped_eq_some mapped, ofGroups_segments]
  · have zero : IsZeroSpan ip.segments (longestZeroSpan 0 ⟨0, 0⟩ ⟨0, 0⟩ ip.segments) :=
      longestZeroSpan_isZeroSpan [] ip.segments (IsZeroSpan.empty []) (.inl rfl)
    generalize longestZeroSpan 0 ⟨0, 0⟩ ⟨0, 0⟩ ip.segments = zeroes at zero ⊢
    obtain ⟨inside, zeroes_eq⟩ := zero
    rw [ip.length_segments] at inside
    simp only
    split
    · next several =>
      let head := ip.segments.take zeroes.start
      let tail := ip.segments.drop (zeroes.start + zeroes.len)
      have headLength : head.length = zeroes.start := by
        simp [head, ip.length_segments]; omega
      have tailLength : tail.length = 8 - (zeroes.start + zeroes.len) := by
        simp [tail, ip.length_segments]
      have whole : head ++ List.replicate (8 - tail.length - head.length) 0 ++ tail =
          ip.segments := by
        rw [show 8 - tail.length - head.length = zeroes.len by omega, ← zeroes_eq,
          List.append_assoc, show tail = (ip.segments.drop zeroes.start).drop zeroes.len by
            simp [tail, List.drop_drop], List.take_append_drop, List.take_append_drop]
      have read := readIpv6Addr_compressed head tail (by omega) ends
      rw [whole, ofGroups_segments] at read
      simpa [head, tail, List.append_assoc] using read
    · have full := readGroups_fmtSubslice 8 ip.segments (by rw [ip.length_segments]) ends
      simp [readIpv6Addr, full, ip.length_segments, ofGroups_segments]

theorem afterHex_fmtSubslice (groups : List UInt16) (tail : List Char) :
    (afterHex (fmtSubslice groups ++ ':' :: tail)).head? = some ':' := by
  have colon : Stops 16 (':' :: tail) := rfl
  cases groups with
  | nil => exact congrArg List.head? (afterHex_of_stops colon)
  | cons group groups =>
    have behind : (separated groups ++ ':' :: tail).head? = some ':' := by
      cases groups <;> simp [separated]
    have stops : Stops 16 (separated groups ++ ':' :: tail) := by
      unfold Stops
      rw [behind]
      rfl
    have text : fmtSubslice (group :: groups) ++ ':' :: tail =
        Nat.toDigits 16 group.toNat ++ (separated groups ++ ':' :: tail) := by
      simp [fmtSubslice, separated]
    rw [text, afterHex_toDigits _ stops, behind]

/-- A printed IPv6 address has a colon behind its first digits. -/
theorem afterHex_chars (ip : Ipv6Addr) (tail : List Char) :
    (afterHex (ip.chars ++ ':' :: tail)).head? = some ':' := by
  unfold Ipv6Addr.chars
  split
  · next ipv4 mapped =>
    have colon : Stops 16 ("::ffff:".toList ++ ipv4.chars ++ ':' :: tail) := rfl
    rw [afterHex_of_stops colon]
    rfl
  · simp only
    split
    · rw [List.append_assoc, List.append_assoc]
      exact afterHex_fmtSubslice _ (':' :: _)
    · exact afterHex_fmtSubslice _ _

theorem colon_notMem_chars_v4 (ip : Ipv4Addr) : ':' ∉ ip.chars := by
  have noColon (octet : UInt8) : ':' ∉ Nat.toDigits 10 octet.toNat := fun membership => by
    have digit := Nat.isDigit_of_mem_toDigits (by decide) (by decide) membership
    simp [Char.isDigit] at digit
  simp [Ipv4Addr.chars, noColon]

theorem colon_mem_chars_v6 (ip : Ipv6Addr) : ':' ∈ ip.chars := by
  unfold Ipv6Addr.chars
  split
  · simp
  · simp only
    split
    · simp
    · match ip.segments, ip.length_segments with
      | first :: second :: tail, _ => simp [fmtSubslice]

/-! ## Socket addresses -/

@[simp] theorem toList_display (ip : IpAddr) : ip.display.toList = ip.chars :=
  String.toList_ofList

theorem readPort_toDigits (port : UInt16) :
    readPort (':' :: Nat.toDigits 10 port.toNat) = some (port, []) := by
  have number : readNumber 10 none true 65536 (Nat.toDigits 10 port.toNat ++ []) =
      some (port.toNat, []) :=
    readNumber_toDigits (by decide) (by decide) port.toNat_lt (by simp) rfl
  rw [List.append_nil] at number
  simp [readPort, readGivenChar, number]

theorem parse_v4 (ip : Ipv4Addr) (port : UInt16) :
    SocketAddr.parse ((IpAddr.v4 ip).display ++ ":" ++ toString port.toNat) =
      some (.v4 ip port) := by
  have text : ((IpAddr.v4 ip).display ++ ":" ++ toString port.toNat).toList =
      ip.chars ++ ':' :: Nat.toDigits 10 port.toNat := by
    simp [IpAddr.chars]
  have colon : Stops 10 (':' :: Nat.toDigits 10 port.toNat) := rfl
  simp only [SocketAddr.parse, text, readSocketAddrV4, readIpv4Addr_chars ip colon,
    readPort_toDigits, Option.bind_eq_bind, Option.bind_some]
  rfl

theorem parse_v6_bracketed (ip : Ipv6Addr) (port : UInt16) :
    SocketAddr.parse ("[" ++ (IpAddr.v6 ip).display ++ "]:" ++ toString port.toNat) =
      some (.v6 ip port 0) := by
  have text : ("[" ++ (IpAddr.v6 ip).display ++ "]:" ++ toString port.toNat).toList =
      '[' :: (ip.chars ++ ']' :: ':' :: Nat.toDigits 10 port.toNat) := by
    simp [IpAddr.chars]
  have bracket : Ends (']' :: ':' :: Nat.toDigits 10 port.toNat) :=
    ⟨rfl, by simp, fun tail same => by cases same⟩
  have notV4 : readSocketAddrV4 ('[' :: (ip.chars ++ ']' :: ':' :: Nat.toDigits 10 port.toNat)) =
      none := by
    simp [readSocketAddrV4, readIpv4Addr_stops (show Stops 16 ('[' :: _) from rfl)]
  have noScope : readScopeId (']' :: ':' :: Nat.toDigits 10 port.toNat) = none := by
    simp [readScopeId, readGivenChar]
  simp only [SocketAddr.parse, text, notV4, Option.none_or, readSocketAddrV6, readGivenChar,
    if_true, Option.bind_eq_bind, Option.bind_some, readIpv6Addr_chars ip bracket, noScope,
    Option.getD_none, readPort_toDigits]
  rfl

theorem parse_v6_scoped (ip : Ipv6Addr) (port : UInt16) (scopeId : UInt32) :
    SocketAddr.parse ("[" ++ (IpAddr.v6 ip).display ++ "%" ++ toString scopeId.toNat ++ "]:" ++
      toString port.toNat) = some (.v6 ip port scopeId) := by
  have text : ("[" ++ (IpAddr.v6 ip).display ++ "%" ++ toString scopeId.toNat ++ "]:" ++
      toString port.toNat).toList = '[' :: (ip.chars ++ '%' :: (Nat.toDigits 10 scopeId.toNat ++
        ']' :: ':' :: Nat.toDigits 10 port.toNat)) := by
    simp [IpAddr.chars]
  have percent (tail : List Char) : Ends ('%' :: tail) :=
    ⟨rfl, by simp, fun tail same => by cases same⟩
  have notV4 (tail : List Char) : readSocketAddrV4 ('[' :: tail) = none := by
    simp [readSocketAddrV4, readIpv4Addr_stops (show Stops 16 ('[' :: _) from rfl)]
  have scope : readScopeId ('%' :: (Nat.toDigits 10 scopeId.toNat ++
      ']' :: ':' :: Nat.toDigits 10 port.toNat)) =
        some (scopeId, ']' :: ':' :: Nat.toDigits 10 port.toNat) := by
    have number : readNumber 10 none true 4294967296 (Nat.toDigits 10 scopeId.toNat ++
        ']' :: ':' :: Nat.toDigits 10 port.toNat) =
          some (scopeId.toNat, ']' :: ':' :: Nat.toDigits 10 port.toNat) :=
      readNumber_toDigits (by decide) (by decide) scopeId.toNat_lt (by simp) rfl
    simp [readScopeId, readGivenChar, number]
  simp only [SocketAddr.parse, text, notV4, Option.none_or, readSocketAddrV6, readGivenChar,
    if_true, Option.bind_eq_bind, Option.bind_some, readIpv6Addr_chars ip (percent _), scope,
    Option.getD_some, readPort_toDigits]
  rfl

/-- What is printed is read back. -/
theorem parse_display (address : SocketAddr) : SocketAddr.parse address.display = some address := by
  cases address with
  | v4 ip port => exact parse_v4 ip port
  | v6 ip port scopeId =>
    rw [SocketAddr.display]
    split
    · next unscoped => rw [unscoped, parse_v6_bracketed]
    · exact parse_v6_scoped ip port scopeId

theorem SocketAddr.display_injective : Function.Injective SocketAddr.display := by
  intro addr addr' same
  have read := parse_display addr
  rw [same, parse_display, Option.some.injEq] at read
  exact read.symm

/-- Without brackets an IPv6 address and a port are not a socket address. -/
theorem parse_v6_bare (ip : Ipv6Addr) (port : UInt16) :
    SocketAddr.parse ((IpAddr.v6 ip).display ++ ":" ++ toString port.toNat) = none := by
  have text : ((IpAddr.v6 ip).display ++ ":" ++ toString port.toNat).toList =
      ip.chars ++ ':' :: Nat.toDigits 10 port.toNat := by
    simp [IpAddr.chars]
  have colon := afterHex_chars ip (Nat.toDigits 10 port.toNat)
  have notV4 : readSocketAddrV4 (ip.chars ++ ':' :: Nat.toDigits 10 port.toNat) = none := by
    have noIpv4 := readIpv4Addr_eq_none (by rw [colon]; simp)
    rw [readSocketAddrV4, noIpv4]
    rfl
  have notV6 : readSocketAddrV6 (ip.chars ++ ':' :: Nat.toDigits 10 port.toNat) = none := by
    have noBracket : readGivenChar '[' (ip.chars ++ ':' :: Nat.toDigits 10 port.toNat) = none := by
      generalize ip.chars ++ ':' :: Nat.toDigits 10 port.toNat = input at colon
      cases input with
      | nil => rfl
      | cons c tail =>
        have other : c ≠ '[' := by
          rintro rfl
          rw [afterHex_of_stops (show Stops 16 ('[' :: tail) from rfl)] at colon
          simp at colon
        simp [readGivenChar, other]
    rw [readSocketAddrV6, noBracket]
    rfl
  rw [SocketAddr.parse, text, notV4, notV6]
  rfl

theorem display_injective : Function.Injective IpAddr.display := by
  have nil : Ends [] := ⟨rfl, by simp, nofun⟩
  have notBoth (ipv4 : Ipv4Addr) (ipv6 : Ipv6Addr) : ipv4.chars ≠ ipv6.chars := by
    intro same
    have asV4 := readIpv4Addr_chars ipv4 (show Stops 10 (':' :: []) from rfl)
    rw [same, readIpv4Addr_eq_none (by simp [afterHex_chars])] at asV4
    cases asV4
  intro first second same
  have chars : first.chars = second.chars := String.ofList_injective same
  cases first with
  | v4 first =>
    cases second with
    | v4 second =>
      have read := readIpv4Addr_chars first nil.stops.decimal
      rw [show first.chars = second.chars from chars,
        readIpv4Addr_chars second nil.stops.decimal] at read
      simp only [Option.some.injEq, Prod.mk.injEq, and_true] at read
      rw [read]
    | v6 second => exact absurd chars (notBoth first second)
  | v6 first =>
    cases second with
    | v4 second => exact absurd chars.symm (notBoth second first)
    | v6 second =>
      have read := readIpv6Addr_chars first nil
      rw [show first.chars = second.chars from chars, readIpv6Addr_chars second nil] at read
      simp only [Option.some.injEq, Prod.mk.injEq, and_true] at read
      rw [read]

end PqcUtils.Net

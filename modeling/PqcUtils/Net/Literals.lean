import PqcUtils.Net.Address

/-!
# The characters of an address literal

What the parser accepts as an IPv4 address is digits and dots. What it accepts as
an IPv6 address has a colon in it, in whatever form it is written.
-/

namespace PqcUtils.Net

open Text

/-! ## Numbers -/

theorem readNumber_consumes {radix limit value : Nat} {maxDigits : Option Nat}
    {allowZeroPrefix : Bool} {input rest : List Char}
    (read : readNumber radix maxDigits allowZeroPrefix limit input = some (value, rest)) :
    Consumes (fun c => toDigit radix c ≠ none) input rest := by
  simp only [readNumber] at read
  split at read
  · cases read
  · next value' count rest' digits =>
    have consumed := readDigits_consumes digits
    split at read
    · cases read
    · split at read
      · cases read
      · split at read
        · simp only [Option.some.injEq, Prod.mk.injEq] at read
          rwa [← read.2]
        · cases read

theorem readGivenChar_eq_some_iff {expected : Char} {input rest : List Char} :
    readGivenChar expected input = some rest ↔ input = expected :: rest := by
  cases input with
  | nil => simp [readGivenChar]
  | cons c tail =>
    by_cases same : c = expected <;> simp [readGivenChar, same]

section Separated

variable {Value : Type} {separator : Char} {inner : List Char → Option (Value × List Char)}
  {index : Nat} {input rest : List Char} {value : Value}

theorem readSeparator_cases
    (read : readSeparator separator index inner input = some (value, rest)) :
    index = 0 ∧ inner input = some (value, rest) ∨
      ∃ tail, input = separator :: tail ∧ inner tail = some (value, rest) := by
  unfold readSeparator at read
  split at read
  · obtain ⟨tail, separated, read⟩ := Option.bind_eq_some_iff.mp read
    exact .inr ⟨tail, readGivenChar_eq_some_iff.mp separated, read⟩
  · next first => exact .inl ⟨by omega, read⟩

theorem readSeparator_consumes {Kind : Char → Prop} (kind : Kind separator)
    (consumes : ∀ input value rest, inner input = some (value, rest) → Consumes Kind input rest)
    (read : readSeparator separator index inner input = some (value, rest)) :
    Consumes Kind input rest := by
  rcases readSeparator_cases read with ⟨-, read⟩ | ⟨tail, rfl, behind⟩
  · exact consumes input value rest read
  · exact .cons kind (consumes tail value rest behind)

theorem readSeparator_suffix
    (suffix : ∀ input value rest, inner input = some (value, rest) → rest <:+ input)
    (read : readSeparator separator index inner input = some (value, rest)) : rest <:+ input := by
  rcases readSeparator_cases read with ⟨-, read⟩ | ⟨tail, rfl, behind⟩
  · exact suffix input value rest read
  · exact (suffix tail value rest behind).trans (List.suffix_cons separator tail)

theorem separator_mem_of_readSeparator
    (read : readSeparator separator (index + 1) inner input = some (value, rest)) :
    separator ∈ input := by
  rcases readSeparator_cases read with ⟨first, -⟩ | ⟨tail, rfl, -⟩
  · cases first
  · exact List.mem_cons_self

end Separated

/-! ## IPv4 addresses -/

def IsIpv4Char (c : Char) : Prop := toDigit 10 c ≠ none ∨ c = '.'

theorem readOctet_consumes {index octet : Nat} {input rest : List Char}
    (read : readOctet index input = some (octet, rest)) : Consumes IsIpv4Char input rest :=
  readSeparator_consumes (.inr rfl)
    (fun _ _ _ number => (readNumber_consumes number).mono fun _ => .inl) read

theorem readIpv4Addr_consumes {input rest : List Char} {ip : Ipv4Addr}
    (read : readIpv4Addr input = some (ip, rest)) : Consumes IsIpv4Char input rest := by
  simp only [readIpv4Addr, Option.bind_eq_bind, Option.bind_eq_some_iff] at read
  obtain ⟨⟨a, input1⟩, first, ⟨b, input2⟩, second, ⟨c, input3⟩, third, ⟨d, input4⟩, fourth,
    result⟩ := read
  cases result
  exact (readOctet_consumes first).trans ((readOctet_consumes second).trans
    ((readOctet_consumes third).trans (readOctet_consumes fourth)))

/-- There is no colon in what is read as an IPv4 address. -/
theorem colon_notMem_of_readIpv4Addr {input : List Char} {ip : Ipv4Addr}
    (read : readIpv4Addr input = some (ip, [])) : ':' ∉ input := by
  obtain ⟨used, split, kinds⟩ := readIpv4Addr_consumes read
  rw [List.append_nil] at split
  rw [split]
  intro membership
  have kind := kinds ':' membership
  simp [IsIpv4Char, toDigit] at kind

/-! ## IPv6 addresses -/

theorem readGroup_suffix {index group : Nat} {input rest : List Char}
    (read : readSeparator ':' index (readNumber 16 (some 4) true 65536) input =
      some (group, rest)) : rest <:+ input :=
  readSeparator_suffix (fun _ _ _ number => (readNumber_consumes number).suffix) read

theorem readGroups_suffix (room index : Nat) (input : List Char) :
    (readGroups room index input).2.2 <:+ input := by
  induction room generalizing index input with
  | zero => exact List.suffix_refl input
  | succ room ih =>
    simp only [readGroups]
    split
    · next ipv4 rest embedded =>
      split at embedded
      · exact readSeparator_suffix (fun _ _ _ read => (readIpv4Addr_consumes read).suffix) embedded
      · cases embedded
    · split
      · next group rest number => exact (ih (index + 1) rest).trans (readGroup_suffix number)
      · exact List.suffix_refl input

theorem colon_mem_of_readGroups_later {room index : Nat} {input : List Char}
    (some_group : (readGroups room (index + 1) input).1 ≠ []) : ':' ∈ input := by
  cases room with
  | zero => exact absurd rfl some_group
  | succ room =>
    simp only [readGroups] at some_group
    split at some_group
    · next embedded =>
      split at embedded
      · exact separator_mem_of_readSeparator embedded
      · cases embedded
    · split at some_group
      · next number => exact separator_mem_of_readSeparator number
      · exact absurd rfl some_group

/-- An embedded IPv4 address is two groups, so three of them have a colon between them. -/
theorem colon_mem_of_readGroups (room : Nat) {input : List Char}
    (several : 2 < (readGroups room 0 input).1.length) : ':' ∈ input := by
  cases room with
  | zero => simp [readGroups] at several
  | succ room =>
    simp only [readGroups] at several
    split at several
    · simp [Ipv4Addr.segments] at several
    · split at several
      · next group rest number =>
        have later : (readGroups room (0 + 1) rest).1 ≠ [] := by
          intro none
          rw [none] at several
          simp at several
        exact (readGroup_suffix number).subset (colon_mem_of_readGroups_later later)
      · simp at several

/-- There is a colon in what is read as an IPv6 address. -/
theorem colon_mem_of_readIpv6Addr {input rest : List Char} {ip : Ipv6Addr}
    (read : readIpv6Addr input = some (ip, rest)) : ':' ∈ input := by
  have left := readGroups_suffix 8 0 input
  simp only [readIpv6Addr] at read
  split at read
  · next full => exact colon_mem_of_readGroups 8 (by omega)
  · split at read
    · cases read
    · obtain ⟨input1, colon, -⟩ := Option.bind_eq_some_iff.mp read
      rw [readGivenChar_eq_some_iff.mp colon] at left
      exact left.subset List.mem_cons_self

end PqcUtils.Net

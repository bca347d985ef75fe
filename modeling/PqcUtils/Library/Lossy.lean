import PqcUtils.Library.Text

/-!
# Lossy text

`to_string_lossy` keeps what is well-formed UTF-8 and puts U+FFFD for every
longest beginning of a sequence that is not. Text comes out as it went in, and
the result is never shorter.
-/

namespace PqcUtils.Text

def replacement : Bytes := [0xEF, 0xBF, 0xBD]

/-- The ranges of the bytes that must follow a first byte, if it is one. -/
def continuations (lead : UInt8) : Option (List (UInt8 × UInt8)) :=
  let tail : UInt8 × UInt8 := (0x80, 0xBF)
  if lead ≤ 0x7F then some []
  else if lead < 0xC2 then none
  else if lead ≤ 0xDF then some [tail]
  else if lead = 0xE0 then some [(0xA0, 0xBF), tail]
  else if lead = 0xED then some [(0x80, 0x9F), tail]
  else if lead ≤ 0xEF then some [tail, tail]
  else if lead = 0xF0 then some [(0x90, 0xBF), tail, tail]
  else if lead ≤ 0xF3 then some [tail, tail, tail]
  else if lead = 0xF4 then some [(0x80, 0x8F), tail, tail]
  else none

def accept (expected : List (UInt8 × UInt8)) (byte : UInt8) : Option (List (UInt8 × UInt8)) :=
  match expected with
  | [] => none
  | (low, high) :: more => if low ≤ byte ∧ byte ≤ high then some more else none

/-- The loop over the bytes. A sequence that has begun is pending until all that is expected has
come. -/
def lossyFrom (pending : Bytes) (expected : List (UInt8 × UInt8)) : Bytes → Bytes
  | [] => if pending = [] then [] else replacement
  | byte :: bytes =>
    match accept expected byte with
    | some [] => pending ++ byte :: lossyFrom [] [] bytes
    | some more => lossyFrom (pending ++ [byte]) more bytes
    | none =>
      (if pending = [] then [] else replacement) ++
        match continuations byte with
        | some [] => byte :: lossyFrom [] [] bytes
        | some expected => lossyFrom [byte] expected bytes
        | none => replacement ++ lossyFrom [] [] bytes

/-- The bytes of `to_string_lossy`. -/
def lossy (bytes : Bytes) : Bytes := lossyFrom [] [] bytes

example : lossy [0x61, 0xF1, 0x80, 0x80, 0xE1, 0x80, 0xC2, 0x62] =
    0x61 :: (replacement ++ replacement ++ replacement ++ [0x62]) := by decide

/-! ## What comes out -/

theorem length_accept {expected more : List (UInt8 × UInt8)} {byte : UInt8}
    (accepted : accept expected byte = some more) : more.length + 1 = expected.length := by
  cases expected with
  | nil => cases accepted
  | cons range expected =>
    simp only [accept] at accepted
    split at accepted
    · cases accepted
      rfl
    · cases accepted

theorem accept_subset {expected more : List (UInt8 × UInt8)} {byte : UInt8}
    (accepted : accept expected byte = some more) : more ⊆ expected := by
  cases expected with
  | nil => cases accepted
  | cons range expected =>
    simp only [accept] at accepted
    split at accepted
    · cases accepted
      exact List.subset_cons_self _ _
    · cases accepted

theorem continuations_tails {lead : UInt8} {expected : List (UInt8 × UInt8)}
    (begins : continuations lead = some expected) :
    expected.length ≤ 3 ∧ ∀ range ∈ expected, 0x80 ≤ range.1 := by
  revert begins
  fun_cases continuations lead <;> rintro ⟨⟩ <;> simp +zetaDelta

/-- Bytes are kept or replaced, so a kind of all of them is one of what comes out. -/
theorem forall_lossyFrom {Kind : UInt8 → Prop} (replaced : ∀ byte ∈ replacement, Kind byte)
    (bytes pending : Bytes) (expected : List (UInt8 × UInt8)) (kept : ∀ byte ∈ pending, Kind byte)
    (kinds : ∀ byte ∈ bytes, Kind byte) : ∀ byte ∈ lossyFrom pending expected bytes, Kind byte := by
  have given : ∀ byte ∈ if pending = [] then [] else replacement, Kind byte := by
    split
    · exact nofun
    · exact replaced
  induction bytes generalizing pending expected with
  | nil =>
    rw [lossyFrom]
    exact given
  | cons first bytes ih =>
    obtain ⟨here, later⟩ := List.forall_mem_cons.mp kinds
    have fresh := ih [] [] nofun later nofun
    have single : ∀ byte ∈ [first], Kind byte := List.forall_mem_singleton.mpr here
    rw [lossyFrom]
    split
    · exact List.forall_mem_append.mpr ⟨kept, List.forall_mem_cons.mpr ⟨here, fresh⟩⟩
    · have grown := List.forall_mem_append.mpr ⟨kept, single⟩
      exact ih _ _ grown later (by simpa using replaced)
    · refine List.forall_mem_append.mpr ⟨given, ?_⟩
      split
      · exact List.forall_mem_cons.mpr ⟨here, fresh⟩
      · exact ih _ _ single later (by simpa using replaced)
      · exact List.forall_mem_append.mpr ⟨replaced, fresh⟩

theorem notMem_lossy {byte : UInt8} (foreign : byte ∉ replacement) {bytes : Bytes}
    (absent : byte ∉ bytes) : byte ∉ lossy bytes := by
  have replaced : ∀ other ∈ replacement, other ≠ byte :=
    fun other membership same => foreign (same ▸ membership)
  have kept : ∀ other ∈ bytes, other ≠ byte :=
    fun other membership same => absent (same ▸ membership)
  exact fun membership => forall_lossyFrom replaced bytes [] [] nofun kept byte membership rfl

theorem length_lossyFrom (bytes pending : Bytes) (expected : List (UInt8 × UInt8))
    (few : pending.length ≤ 3) (total : pending.length + expected.length ≤ 4) :
    pending.length + bytes.length ≤ (lossyFrom pending expected bytes).length := by
  have given : pending.length ≤ (if pending = [] then [] else replacement).length := by
    split
    · next none => rw [none]
    · exact few
  induction bytes generalizing pending expected with
  | nil =>
    rw [lossyFrom]
    exact given
  | cons first bytes ih =>
    have fresh := ih [] [] (by simp) (by simp) (by simp)
    rw [lossyFrom]
    split
    · rw [List.length_append, List.length_cons, List.length_cons]
      rw [List.length_nil] at fresh
      omega
    · next more unfinished accepted =>
      have remaining := length_accept accepted
      have nonempty : more.length ≠ 0 := fun none => unfinished (List.length_eq_zero_iff.mp none)
      have grown := ih (pending ++ [first]) more
        (by rw [List.length_append, List.length_singleton]; omega)
        (by rw [List.length_append, List.length_singleton]; omega)
        (by simp [replacement]; omega)
      rw [List.length_append, List.length_singleton] at grown
      rw [List.length_cons]
      omega
    · generalize (if pending = [] then [] else replacement : Bytes) = flushed at given ⊢
      rw [List.length_append, List.length_cons]
      split
      · rw [List.length_cons]
        rw [List.length_nil] at fresh
        omega
      · next begun _ begins =>
        have short := (continuations_tails begins).1
        have grown := ih [first] begun (by simp) (by rw [List.length_singleton]; omega)
          (by simp [replacement])
        rw [List.length_singleton] at grown
        omega
      · rw [List.length_append]
        rw [List.length_nil] at fresh
        have three : replacement.length = 3 := rfl
        omega

theorem length_le_length_lossy (bytes : Bytes) : bytes.length ≤ (lossy bytes).length := by
  have long := length_lossyFrom bytes [] [] (by simp) (by simp)
  rwa [List.length_nil, Nat.zero_add] at long

/-! ## Text -/

theorem lossyFrom_expected {expected : List (UInt8 × UInt8)} {behind : Bytes}
    (inside : List.Forall₂ (fun range byte => range.1 ≤ byte ∧ byte ≤ range.2) expected behind)
    (begun : expected ≠ []) (pending bytes : Bytes) :
    lossyFrom pending expected (behind ++ bytes) =
      pending ++ (behind ++ lossyFrom [] [] bytes) := by
  induction inside generalizing pending with
  | nil => exact absurd rfl begun
  | @cons range byte expected behind within inside ih =>
    have accepted : accept (range :: expected) byte = some expected := if_pos within
    rw [List.cons_append, lossyFrom, accepted]
    cases inside with
    | nil => rfl
    | cons next others =>
      rw [List.cons_append] at ih ⊢
      simp [ih (by simp)]

theorem lossyFrom_sequence {lead : UInt8} {expected : List (UInt8 × UInt8)} {behind : Bytes}
    (begins : continuations lead = some expected)
    (inside : List.Forall₂ (fun range byte => range.1 ≤ byte ∧ byte ≤ range.2) expected behind)
    (bytes : Bytes) :
    lossyFrom [] [] (lead :: behind ++ bytes) = lead :: behind ++ lossyFrom [] [] bytes := by
  have unexpected : accept [] lead = none := rfl
  rw [List.cons_append, lossyFrom, unexpected, begins]
  cases inside with
  | nil => rfl
  | cons within inside => exact lossyFrom_expected (.cons within inside) (by simp) [lead] bytes

theorem between {low high : UInt8} {n : Nat} (above : low.toNat ≤ n) (below : n ≤ high.toNat) :
    low ≤ UInt8.ofNat n ∧ UInt8.ofNat n ≤ high := by
  have bound := high.toNat_lt
  rw [UInt8.le_iff_toNat_le, UInt8.le_iff_toNat_le,
    UInt8.toNat_ofNat_of_lt' (Nat.lt_of_le_of_lt below bound)]
  exact ⟨above, below⟩

theorem continuations_one : ∀ n < 0x80, continuations (.ofNat n) = some [] := by decide

theorem continuations_two :
    ∀ n < 0xE0, 0xC2 ≤ n → continuations (.ofNat n) = some [(0x80, 0xBF)] := by
  decide +kernel

/-- Behind the first byte 0xE0 the number would be too small, behind 0xED it may be a surrogate. -/
theorem continuations_three : ∀ n < 0xF0, 0xE0 ≤ n → continuations (.ofNat n) =
    some [(if n = 0xE0 then 0xA0 else 0x80, if n = 0xED then 0x9F else 0xBF), (0x80, 0xBF)] := by
  decide +kernel

/-- Behind the first byte 0xF0 the number would be too small, behind 0xF4 it may be too large. -/
theorem continuations_four : ∀ n < 0xF5, 0xF0 ≤ n → continuations (.ofNat n) =
    some [(if n = 0xF0 then 0x90 else 0x80, if n = 0xF4 then 0x8F else 0xBF), (0x80, 0xBF),
      (0x80, 0xBF)] := by
  decide +kernel

theorem lossyFrom_utf8EncodeChar (c : Char) (bytes : Bytes) :
    lossyFrom [] [] (String.utf8EncodeChar c ++ bytes) =
      String.utf8EncodeChar c ++ lossyFrom [] [] bytes := by
  have scalar : c.val.toNat < 0xD800 ∨ 0xDFFF < c.val.toNat ∧ c.val.toNat < 0x110000 := c.valid
  have tail (n : Nat) : (0x80 : UInt8) ≤ .ofNat (n % 0x40 + 0x80) ∧
      UInt8.ofNat (n % 0x40 + 0x80) ≤ 0xBF := between (by simp) (by simp; omega)
  fun_cases String.utf8EncodeChar c with
  | case1 v one => exact lossyFrom_sequence (continuations_one v (by omega)) .nil bytes
  | case2 v notOne two =>
    exact lossyFrom_sequence (continuations_two _ (by omega) (by omega)) (.cons (tail v) .nil) bytes
  | case3 v notOne notTwo three =>
    have second : (if v / 4096 % 16 + 0xE0 = 0xE0 then 0xA0 else 0x80 : UInt8) ≤
          .ofNat (v / 64 % 0x40 + 0x80) ∧ UInt8.ofNat (v / 64 % 0x40 + 0x80) ≤
        if v / 4096 % 16 + 0xE0 = 0xED then 0x9F else 0xBF := by
      apply between <;> split <;> simp <;> omega
    exact lossyFrom_sequence (continuations_three _ (by omega) (by omega))
      (.cons second (.cons (tail v) .nil)) bytes
  | case4 v notOne notTwo notThree =>
    have second : (if v / 262144 % 8 + 0xF0 = 0xF0 then 0x90 else 0x80 : UInt8) ≤
          .ofNat (v / 4096 % 0x40 + 0x80) ∧ UInt8.ofNat (v / 4096 % 0x40 + 0x80) ≤
        if v / 262144 % 8 + 0xF0 = 0xF4 then 0x8F else 0xBF := by
      apply between <;> split <;> simp <;> omega
    exact lossyFrom_sequence (continuations_four _ (by omega) (by omega))
      (.cons second (.cons (tail _) (.cons (tail v) .nil))) bytes

theorem lossy_toUtf8 (text : String) : lossy (toUtf8 text) = toUtf8 text := by
  rw [toUtf8_eq_flatMap, lossy]
  induction text.toList with
  | nil => rfl
  | cons c chars ih => rw [List.flatMap_cons, lossyFrom_utf8EncodeChar, ih]

/-! ## Parts -/

/-- An ASCII byte ends whatever is pending, so the parts around it are converted apart. -/
theorem lossyFrom_append_ascii {ascii : UInt8} (isAscii : ascii < 0x80) (rest bytes pending : Bytes)
    (expected : List (UInt8 × UInt8)) (tails : ∀ range ∈ expected, 0x80 ≤ range.1) :
    lossyFrom pending expected (bytes ++ ascii :: rest) =
      lossyFrom pending expected bytes ++ ascii :: lossyFrom [] [] rest := by
  induction bytes generalizing pending expected with
  | nil =>
    have unexpected : accept expected ascii = none := by
      cases expected with
      | nil => rfl
      | cons range expected =>
        refine if_neg fun within => ?_
        have above := UInt8.le_trans (tails range List.mem_cons_self) within.1
        exact absurd isAscii (UInt8.not_lt.mpr above)
    have begins : continuations ascii = some [] := by
      have one := continuations_one ascii.toNat isAscii
      rwa [UInt8.ofNat_toNat] at one
    simp only [List.nil_append, lossyFrom, unexpected, begins]
  | cons first bytes ih =>
    have fresh := ih [] [] nofun
    simp only [List.cons_append, lossyFrom]
    cases accepted : accept expected first with
    | some more =>
      cases more with
      | nil => simp [fresh]
      | cons range more =>
        have later : ∀ next ∈ range :: more, 0x80 ≤ next.1 :=
          fun next membership => tails next (accept_subset accepted membership)
        exact ih _ _ later
    | none =>
      cases begins : continuations first with
      | some begun =>
        cases begun with
        | nil => simp [fresh]
        | cons range begun => simp [ih _ _ (continuations_tails begins).2]
      | none => simp [fresh]

theorem lossy_append_ascii {ascii : UInt8} (isAscii : ascii < 0x80) (bytes rest : Bytes) :
    lossy (bytes ++ ascii :: rest) = lossy bytes ++ ascii :: lossy rest :=
  lossyFrom_append_ascii isAscii rest bytes [] [] nofun

theorem lossy_parts {ascii : UInt8} (isAscii : ascii < 0x80) {bytes rest : Bytes} {text : String}
    (whole : bytes ++ ascii :: rest = toUtf8 text) : lossy bytes = bytes ∧ lossy rest = rest := by
  have kept := lossy_toUtf8 text
  rw [← whole, lossy_append_ascii isAscii] at kept
  have lengths := congrArg List.length kept
  simp only [List.length_append, List.length_cons] at lengths
  have before := length_le_length_lossy bytes
  have behind := length_le_length_lossy rest
  obtain ⟨first, second⟩ := List.append_inj kept (by omega)
  exact ⟨first, (List.cons.inj second).2⟩

end PqcUtils.Text

import PqcUtils.Library.Text

/-!
# The SSH key exchange message

`SSH_MSG_KEXINIT` as it stands on the wire: the message number, a cookie of
sixteen bytes and ten comma-separated name lists, each a text behind its length
in four bytes. Both parsers of the repository are compared with this format.
-/

namespace PqcUtils.Wire

open Bytes Text

/-- A text behind its length in bytes. -/
def encodeText (text : String) : Bytes :=
  ofUInt32 (.ofNat (toUtf8 text).length) ++ toUtf8 text

def FitsLength (text : String) : Prop := (toUtf8 text).length < 2 ^ 32

instance (text : String) : Decidable (FitsLength text) :=
  inferInstanceAs (Decidable ((toUtf8 text).length < 2 ^ 32))

theorem length_encodeText (text : String) :
    (encodeText text).length = 4 + (toUtf8 text).length := by
  simp [encodeText]

structure Kexinit where
  cookie : Bytes
  /-- The list of key exchange names comes first, the nine lists behind it follow. -/
  kexNames : String
  otherNames : List String
  length_cookie : cookie.length = 16
  length_otherNames : otherNames.length = 9
  fits : ∀ text ∈ kexNames :: otherNames, FitsLength text

namespace Kexinit

def encode (message : Kexinit) : Bytes :=
  20 :: (message.cookie ++ (message.kexNames :: message.otherNames).flatMap encodeText)

def kexAlgorithms (message : Kexinit) : List String := splitOn ',' message.kexNames

/-- The message behind a packet length and a padding length, with what follows it. -/
def packet (message : Kexinit) (packetLength : UInt32) (paddingLength : UInt8) (tail : Bytes) :
    Bytes :=
  ofUInt32 packetLength ++ paddingLength :: (message.encode ++ tail)

theorem length_packet (message : Kexinit) (packetLength : UInt32) (paddingLength : UInt8)
    (tail : Bytes) : (message.packet packetLength paddingLength tail).length =
      5 + message.encode.length + tail.length := by
  simp [packet]
  omega

theorem exists_otherNames (message : Kexinit) :
    ∃ hostKeyNames otherNames, message.otherNames = hostKeyNames :: otherNames :=
  List.exists_cons_of_length_eq_add_one message.length_otherNames

end Kexinit

/-! ## Reading one text -/

/-- The first four bytes as a number, and the bytes behind them. -/
def takeLength : Bytes → Option (Nat × Bytes)
  | a :: b :: c :: d :: rest => some ((be32 a b c d).toNat, rest)
  | _ => none

theorem takeLength_ofUInt32 (value : UInt32) (rest : Bytes) :
    takeLength (ofUInt32 value ++ rest) = some (value.toNat, rest) := by
  simp [ofUInt32, takeLength, be32_ofUInt32]

def takeText (data : Bytes) : Option (String × Bytes) := do
  let (len, rest) ← takeLength data
  if rest.length < len then none
  else
    let text ← fromUtf8 (rest.take len)
    pure (text, rest.drop len)

theorem takeText_encodeText {text : String} (fits : FitsLength text) (rest : Bytes) :
    takeText (encodeText text ++ rest) = some (text, rest) := by
  have number : (UInt32.ofNat (toUtf8 text).length).toNat = (toUtf8 text).length :=
    UInt32.toNat_ofNat_of_lt' fits
  simp [takeText, encodeText, takeLength_ofUInt32, number, fromUtf8_toUtf8]

theorem toNat_lt_of_takeLength {data rest : Bytes} {len : Nat}
    (taken : takeLength data = some (len, rest)) :
    len < 2 ^ 32 ∧ data = ofUInt32 (.ofNat len) ++ rest := by
  match data with
  | [] | [_] | [_, _] | [_, _, _] => simp [takeLength] at taken
  | a :: b :: c :: d :: tail =>
    simp only [takeLength, Option.some.injEq, Prod.mk.injEq] at taken
    obtain ⟨rfl, rfl⟩ := taken
    refine ⟨(be32 a b c d).toNat_lt, ?_⟩
    have aBound := a.toNat_lt
    have bBound := b.toNat_lt
    have cBound := c.toNat_lt
    have dBound := d.toNat_lt
    simp only [ofUInt32, UInt32.ofNat_toNat, List.cons_append, List.nil_append, List.cons.injEq,
      and_true]
    refine ⟨?_, ?_, ?_, ?_⟩ <;> apply UInt8.toNat_inj.mp <;>
      simp [toNat_be32, Nat.shiftRight_eq_div_pow] <;> omega

theorem encodeText_of_takeText {data rest : Bytes} {text : String}
    (taken : takeText data = some (text, rest)) :
    FitsLength text ∧ data = encodeText text ++ rest := by
  simp only [takeText, Option.bind_eq_bind, Option.bind_eq_some_iff] at taken
  obtain ⟨⟨len, behind⟩, lengthTaken, taken⟩ := taken
  obtain ⟨bound, rfl⟩ := toNat_lt_of_takeLength lengthTaken
  simp only at taken
  split at taken
  · cases taken
  · next enough =>
    simp only [Option.bind_eq_some_iff, Option.pure_def, Option.some.injEq, Prod.mk.injEq] at taken
    obtain ⟨text', decoded, rfl, rfl⟩ := taken
    have bytes := toUtf8_of_fromUtf8 decoded
    have length : (toUtf8 text').length = len := by
      rw [bytes, List.length_take]
      omega
    refine ⟨by rw [FitsLength, length]; exact bound, ?_⟩
    rw [encodeText, length, bytes, List.append_assoc, List.take_append_drop]

theorem takeText_eq_some_iff {data rest : Bytes} {text : String} :
    takeText data = some (text, rest) ↔ FitsLength text ∧ data = encodeText text ++ rest := by
  constructor
  · exact encodeText_of_takeText
  · rintro ⟨fits, rfl⟩
    exact takeText_encodeText fits rest

def takeTexts : Nat → Bytes → Option (List String × Bytes)
  | 0, data => some ([], data)
  | count + 1, data => do
    let (text, data) ← takeText data
    let (texts, data) ← takeTexts count data
    pure (text :: texts, data)

theorem takeTexts_eq_some_iff {count : Nat} {data rest : Bytes} {texts : List String} :
    takeTexts count data = some (texts, rest) ↔
      texts.length = count ∧ (∀ text ∈ texts, FitsLength text) ∧
        data = texts.flatMap encodeText ++ rest := by
  induction count generalizing data texts with
  | zero =>
    simp only [takeTexts, Option.some.injEq, Prod.mk.injEq]
    constructor
    · rintro ⟨rfl, rfl⟩
      simp
    · rintro ⟨empty, -, rfl⟩
      cases List.length_eq_zero_iff.mp empty
      simp
  | succ count ih =>
    simp only [takeTexts, Option.bind_eq_bind, Option.bind_eq_some_iff, Option.pure_def,
      Option.some.injEq, Prod.mk.injEq, Prod.exists]
    constructor
    · rintro ⟨text, behind, first, texts', rest', others, rfl, rfl⟩
      obtain ⟨fits, rfl⟩ := takeText_eq_some_iff.mp first
      obtain ⟨length, allFit, rfl⟩ := ih.mp others
      refine ⟨by simp [length], ?_, by simp⟩
      simpa using ⟨fits, allFit⟩
    · rintro ⟨length, allFit, rfl⟩
      cases texts with
      | nil => simp at length
      | cons text texts =>
        simp only [List.mem_cons, forall_eq_or_imp] at allFit
        refine ⟨text, texts.flatMap encodeText ++ rest, ?_, texts, rest, ?_, rfl, rfl⟩
        · exact takeText_eq_some_iff.mpr ⟨allFit.1, by simp⟩
        · exact ih.mpr ⟨by simpa using length, allFit.2, rfl⟩

end PqcUtils.Wire

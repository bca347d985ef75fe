import PqcUtils.Library.Tagged
import PqcUtils.Wire.ClientHello

/-!
# What a payload carries as a hello

A payload need not be a whole hello, nor a correct one. These are the facts that
can be told from its bytes: where its extensions begin, whether all of them are
there, and which groups stand in their key shares. A client offers a list of key
shares behind its length, a server answers with a single one.
-/

namespace PqcUtils.Wire

open Bytes

/-- The payload is a server hello up to the length of its extensions, which stand in `rest`. -/
def ServerHelloUpTo (payload : Bytes) (cipherSuite length : UInt16) (rest : Bytes) : Prop :=
  ∃ front sessionId compression, front.length = 43 ∧ sessionId.length < 2 ^ 8 ∧
    payload = front ++ (vector8 sessionId ++ (ofUInt16 cipherSuite ++
      (compression :: (ofUInt16 length ++ rest))))

/-- The payload is a server hello up to its compression method, and `tail` stands behind it. -/
def ServerHelloBefore (payload : Bytes) (cipherSuite : UInt16) (tail : Bytes) : Prop :=
  ∃ front sessionId compression, front.length = 43 ∧ sessionId.length < 2 ^ 8 ∧
    payload = front ++ (vector8 sessionId ++ (ofUInt16 cipherSuite ++ (compression :: tail)))

theorem serverHelloUpTo_iff {payload rest : Bytes} {suite length : UInt16} :
    ServerHelloUpTo payload suite length rest ↔
      ServerHelloBefore payload suite (ofUInt16 length ++ rest) := Iff.rfl

/-- The payload is a client hello up to the length of its extensions. A number of bytes that is odd
is rounded up to whole suites. -/
def ClientHelloUpTo (payload : Bytes) (cipherSuites : List UInt16) (length : UInt16)
    (rest : Bytes) : Prop :=
  ∃ front sessionId count compressionMethods, front.length = 43 ∧ sessionId.length < 2 ^ 8 ∧
    compressionMethods.length < 2 ^ 8 ∧ cipherSuites.length = (UInt16.toNat count + 1) / 2 ∧
    payload = front ++ (vector8 sessionId ++ (ofUInt16 count ++
      (cipherSuites.flatMap ofUInt16 ++ (vector8 compressionMethods ++
        (ofUInt16 length ++ rest)))))

theorem vector8_append_inj {first second rest rest' : Bytes} (short : first.length < 2 ^ 8)
    (short' : second.length < 2 ^ 8)
    (same : vector8 first ++ rest = vector8 second ++ rest') : first = second ∧ rest = rest' := by
  simp only [vector8, List.cons_append, List.cons.injEq] at same
  obtain ⟨number, same⟩ := same
  have lengths : first.length = second.length := by
    have numbers := congrArg UInt8.toNat number
    rwa [UInt8.toNat_ofNat_of_lt' short, UInt8.toNat_ofNat_of_lt' short'] at numbers
  exact List.append_inj same lengths

theorem ofUInt16_append_inj {first second : UInt16} {rest rest' : Bytes}
    (same : ofUInt16 first ++ rest = ofUInt16 second ++ rest') : first = second ∧ rest = rest' := by
  obtain ⟨number, rests⟩ := List.append_inj same rfl
  refine ⟨?_, rests⟩
  simp only [ofUInt16, List.cons.injEq, and_true] at number
  rw [← be16_ofUInt16 first, ← be16_ofUInt16 second, number.1, number.2]

theorem ServerHelloUpTo.unique {payload rest rest' : Bytes} {suite suite' length length' : UInt16}
    (first : ServerHelloUpTo payload suite length rest)
    (second : ServerHelloUpTo payload suite' length' rest') :
    suite = suite' ∧ length = length' ∧ rest = rest' := by
  obtain ⟨front, sessionId, compression, length_front, short, rfl⟩ := first
  obtain ⟨front', sessionId', compression', length_front', short', same⟩ := second
  obtain ⟨-, same⟩ := List.append_inj same (length_front.trans length_front'.symm)
  obtain ⟨-, same⟩ := vector8_append_inj short short' same
  obtain ⟨suites, same⟩ := ofUInt16_append_inj same
  obtain ⟨-, same⟩ := List.cons.inj same
  obtain ⟨lengths, rests⟩ := ofUInt16_append_inj same
  exact ⟨suites, lengths, rests⟩

/-! ## Key shares -/

def lastKeyShares (extensions : List Tagged) : Option Tagged :=
  (extensions.filter fun extension => extension.tag = keyShareType).getLast?

/-- All extensions are there, and the last one with key shares holds a single share, for this
group. -/
def Chooses (payload : Bytes) (group : UInt16) : Prop :=
  ∃ suite length rest, ServerHelloUpTo payload suite length rest ∧ length.toNat ≤ rest.length ∧
    ∃ extension, lastKeyShares (Tagged.split (rest.take length.toNat)).1 = some extension ∧
      (Tagged.split extension.content).1.map Tagged.tag = [group]

theorem Chooses.unique {payload : Bytes} {group group' : UInt16} (first : Chooses payload group)
    (second : Chooses payload group') : group = group' := by
  obtain ⟨suite, length, rest, upTo, -, extension, last, single⟩ := first
  obtain ⟨suite', length', rest', upTo', -, extension', last', single'⟩ := second
  obtain ⟨-, rfl, rfl⟩ := upTo.unique upTo'
  cases last.symm.trans last'
  simpa using single.symm.trans single'

theorem not_chooses_of_cut {payload rest : Bytes} {suite length : UInt16}
    (upTo : ServerHelloUpTo payload suite length rest) (cut : rest.length < length.toNat)
    (group : UInt16) : ¬Chooses payload group := by
  rintro ⟨suite', length', rest', upTo', complete, -⟩
  obtain ⟨-, rfl, rfl⟩ := upTo.unique upTo'
  omega

theorem chooses_iff_of_complete {payload rest : Bytes} {suite length : UInt16}
    (upTo : ServerHelloUpTo payload suite length rest) (complete : length.toNat ≤ rest.length)
    {group : UInt16} :
    Chooses payload group ↔
      ∃ extension, lastKeyShares (Tagged.split (rest.take length.toNat)).1 = some extension ∧
        (Tagged.split extension.content).1.map Tagged.tag = [group] := by
  constructor
  · rintro ⟨suite', length', rest', upTo', -, chosen⟩
    obtain ⟨-, rfl, rfl⟩ := upTo.unique upTo'
    exact chosen
  · exact fun chosen => ⟨suite, length, rest, upTo, complete, chosen⟩

/-- A key share for the group stands in the extensions of a client hello. -/
def Offers (payload : Bytes) (group : UInt16) : Prop :=
  ∃ suites length rest, ClientHelloUpTo payload suites length rest ∧ length.toNat ≤ rest.length ∧
    ∃ extension ∈ (Tagged.split (rest.take length.toNat)).1, extension.tag = keyShareType ∧
      ∃ share ∈ (Tagged.split (extension.content.drop 2)).1, share.tag = group

/-- A key share for the group stands in the extensions of a server hello. -/
def Answers (payload : Bytes) (group : UInt16) : Prop :=
  ∃ suite length rest, ServerHelloUpTo payload suite length rest ∧ length.toNat ≤ rest.length ∧
    ∃ extension ∈ (Tagged.split (rest.take length.toNat)).1, extension.tag = keyShareType ∧
      ∃ share ∈ (Tagged.split extension.content).1, share.tag = group

theorem Chooses.answers {payload : Bytes} {group : UInt16} (chooses : Chooses payload group) :
    Answers payload group := by
  obtain ⟨suite, length, rest, upTo, complete, extension, last, single⟩ := chooses
  have membership := List.mem_of_getLast? last
  rw [List.mem_filter] at membership
  obtain ⟨share, found, tag⟩ : ∃ share ∈ (Tagged.split extension.content).1, share.tag = group := by
    simpa using (List.mem_map.mp (show group ∈ (Tagged.split extension.content).1.map Tagged.tag
      by simp [single]))
  exact ⟨suite, length, rest, upTo, complete, extension, membership.1,
    of_decide_eq_true membership.2, share, found, tag⟩

end PqcUtils.Wire

import PqcUtils.Dump.Capture
import PqcUtils.Dump.Tls.Reading
import PqcUtils.Wire.ServerHello

/-!
# Reads out of range

A parser panics when it reads behind the end of its payload. The client hello has
one such place, behind an odd number of cipher suite bytes. The server hello has
two: the length of the extensions, and an extension whose content is looked at
although it is cut off.
-/

namespace PqcUtils.Dump

open Bytes Wire

/-! ## Client hellos -/

/-- The payload ends with its cipher suites, and the last one is half a suite. -/
def EndsInHalfSuite (payload : Bytes) : Prop :=
  ∃ front sessionId count suites, front.length = 43 ∧ sessionId.length < 2 ^ 8 ∧
    suites.length = UInt16.toNat count ∧ count.toNat % 2 = 1 ∧
    payload = front ++ (vector8 sessionId ++ (ofUInt16 count ++ suites))

theorem readCipherSuites_eq_panic_iff {data : Bytes} {count offset : Nat} :
    readCipherSuites data count offset = .panic ↔
      0 < count ∧ data.length < offset + 2 * count := by
  induction count generalizing offset with
  | zero => simp [readCipherSuites]
  | succ count ih =>
    rw [readCipherSuites, Outcome.bind_eq_panic_iff, index16_eq_panic_iff]
    constructor
    · rintro (outside | ⟨cs, -, panics⟩)
      · omega
      · rcases Outcome.bind_eq_panic_iff.mp panics with later | ⟨_, -, panics⟩
        · have bound := (ih.mp later).2
          omega
        · cases panics
    · rintro ⟨-, short⟩
      by_cases outside : data.length < offset + 2
      · exact .inl outside
      · obtain ⟨cs, read⟩ := exists_index16 String data offset (by omega)
        have later : readCipherSuites data count (offset + 2) = .panic :=
          ih.mpr ⟨by omega, by omega⟩
        exact .inr ⟨cs, read, by rw [later, Outcome.panic_bind]⟩

theorem parseHelloHead_of_endsInHalfSuite {payload : Bytes} (ends : EndsInHalfSuite payload) :
    parseHelloHead payload = .panic := by
  obtain ⟨front, sessionId, count, suites, length_front, short, length_suites, odd, split⟩ := ends
  have total : payload.length = 46 + sessionId.length + count.toNat := by
    simp [split, length_front, length_suites]
    omega
  have atSessionId : payload.drop 43 = vector8 sessionId ++ (ofUInt16 count ++ suites) := by
    rw [split, ← length_front, List.drop_left]
  obtain ⟨sessionIdLen, read, number, atCount⟩ := exists_number_of_drop short atSessionId
  have panics : readCipherSuites payload ((count.toNat + 1) / 2) (44 + sessionId.length + 2) =
      .panic := readCipherSuites_eq_panic_iff.mpr ⟨by omega, by omega⟩
  simp only [parseHelloHead, Nat.reduceAdd] at read ⊢
  rw [Outcome.rejectIf_of_not (by omega), Outcome.ok_bind, Outcome.rejectIf_of_not (by omega),
    Outcome.ok_bind, read, Outcome.ok_bind, number,
    Outcome.rejectIf_of_not (by omega), Outcome.ok_bind, Outcome.rejectIf_of_not (by omega),
    Outcome.ok_bind, index16_of_drop atCount, Outcome.ok_bind,
    Outcome.rejectIf_of_not (by omega), Outcome.ok_bind, panics, Outcome.panic_bind]

theorem endsInHalfSuite_of_panic {payload : Bytes} (panics : parseHelloHead payload = .panic) :
    EndsInHalfSuite payload := by
  simp only [parseHelloHead] at panics
  obtain ⟨-, panics⟩ := Outcome.rejectIf_bind_eq_panic_iff.mp panics
  obtain ⟨long, panics⟩ := Outcome.rejectIf_bind_eq_panic_iff.mp panics
  rcases Outcome.bind_eq_panic_iff.mp panics with outside | ⟨sessionIdLen, readSessionIdLen, panics⟩
  · exact absurd (index_eq_panic_iff.mp outside) long
  obtain ⟨enough, panics⟩ := Outcome.rejectIf_bind_eq_panic_iff.mp panics
  obtain ⟨room, panics⟩ := Outcome.rejectIf_bind_eq_panic_iff.mp panics
  rcases Outcome.bind_eq_panic_iff.mp panics with outside | ⟨count, readCount, panics⟩
  · exact absurd (index16_eq_panic_iff.mp outside) room
  obtain ⟨complete, panics⟩ := Outcome.rejectIf_bind_eq_panic_iff.mp panics
  rcases Outcome.bind_eq_panic_iff.mp panics with outside | ⟨⟨suites, offset⟩, -, panics⟩
  · -- The suites are all there, but not the byte behind an odd number of bytes.
    have short := (readCipherSuites_eq_panic_iff.mp outside).2
    simp only [Nat.reduceAdd] at *
    obtain ⟨front, length_front, atFront⟩ := exists_field payload 0 43 (by omega)
    obtain ⟨sessionId, shortId, atSessionId⟩ := exists_vector8 readSessionIdLen
      (show 44 + sessionIdLen.toNat = _ by omega) (by omega)
    refine ⟨front, sessionId, count, payload.drop (44 + sessionIdLen.toNat + 2), length_front,
      shortId, ?_, by omega, ?_⟩
    · rw [List.length_drop]
      omega
    · rw [List.drop_zero] at atFront
      rw [← drop_of_index16 readCount, ← atSessionId, ← atFront]
  obtain ⟨inside, panics⟩ := Outcome.rejectIf_bind_eq_panic_iff.mp panics
  rcases Outcome.bind_eq_panic_iff.mp panics with outside | ⟨compLen, -, panics⟩
  · exact absurd (index_eq_panic_iff.mp outside) inside
  obtain ⟨inside, panics⟩ := Outcome.rejectIf_bind_eq_panic_iff.mp panics
  rcases Outcome.bind_eq_panic_iff.mp panics with outside | ⟨extensionsLen, -, panics⟩
  · exact absurd (index16_eq_panic_iff.mp outside) inside
  obtain ⟨-, panics⟩ := Outcome.rejectIf_bind_eq_panic_iff.mp panics
  cases panics

/-- Every payload is read without a panic, except where it ends in half a cipher suite. -/
theorem parseSslV3ClientHello_ne_panic_iff (payload : Bytes) :
    parseSslV3ClientHello payload ≠ .panic ↔ ¬EndsInHalfSuite payload := by
  rw [not_iff_not]
  constructor
  · intro panics
    rcases Outcome.bind_eq_panic_iff.mp panics with outside | ⟨head, read, panics⟩
    · exact endsInHalfSuite_of_panic outside
    rcases Outcome.bind_eq_panic_iff.mp panics with outside | ⟨groups, -, panics⟩
    · obtain ⟨block, rest, -, remaining, ends⟩ := exists_block read
      rw [readExtensions_eq_blockGroups remaining ends] at outside
      exact absurd outside (blockGroups_ne_panic _ _)
    · cases panics
  · intro ends
    rw [parseSslV3ClientHello, parseHelloHead_of_endsInHalfSuite ends, Outcome.panic_bind]

def halfSuite : Bytes :=
  [0x16, 0x03, 0x01, 0x00, 0x2a, 0x01, 0x00, 0x00, 0x26, 0x03, 0x03] ++ List.replicate 32 0 ++
    [0, 0x00, 0x01, 0x13]

/-- The parser reads behind the end of a payload that is dispatched to it. -/
theorem halfSuite_panics :
    6 ≤ halfSuite.length ∧ isTlsHandshake halfSuite ∧ parseSslV3ClientHello halfSuite = .panic := by
  refine ⟨by decide, by decide, ?_⟩
  have ends : EndsInHalfSuite halfSuite :=
    ⟨halfSuite.take 43, [], 1, [0x13], by decide, by decide, by decide, by decide, by decide⟩
  rw [parseSslV3ClientHello, parseHelloHead_of_endsInHalfSuite ends, Outcome.panic_bind]

/-! ## Server hellos -/

/-- The payload ends where the length of its extensions should stand. -/
def EndsInLength (payload : Bytes) : Prop :=
  ∃ suite tail, ServerHelloBefore payload suite tail ∧ tail.length < 2

/-- All declared extensions are there, but one whose content is looked at declares more bytes
than are left of them. -/
def Overruns (payload : Bytes) : Prop :=
  ∃ suite length rest, ServerHelloUpTo payload suite length rest ∧ length.toNat ≤ rest.length ∧
    (Tagged.cutOff (Tagged.split (rest.take length.toNat)).2).any sliced

theorem overruns_iff {payload rest : Bytes} {suite length : UInt16}
    (upTo : ServerHelloUpTo payload suite length rest) :
    Overruns payload ↔ length.toNat ≤ rest.length ∧
      (Tagged.cutOff (Tagged.split (rest.take length.toNat)).2).any sliced := by
  constructor
  · rintro ⟨suite', length', rest', upTo', overruns⟩
    obtain ⟨-, rfl, rfl⟩ := upTo.unique upTo'
    exact overruns
  · exact fun overruns => ⟨suite, length, rest, upTo, overruns⟩

theorem parseServerHelloV3_upTo_eq_panic_iff {payload rest : Bytes} {suite length : UInt16}
    (upTo : ServerHelloUpTo payload suite length rest) (server : payload[5]? = some 0x02) :
    parseServerHelloV3 payload = .panic ↔ Overruns payload := by
  rw [overruns_iff upTo, parseServerHelloV3_upTo upTo server, parseExtensions,
    parseExtensionsFrom_eq, List.drop_zero]
  by_cases cut : rest.length < length.toNat
  · rw [if_pos cut]
    simp only [reduceCtorEq, false_iff]
    omega
  · rw [if_neg cut]
    by_cases stuck : (Tagged.cutOff (Tagged.split (rest.take length.toNat)).2).any sliced
    · simp [stuck, Outcome.andThen, Nat.le_of_not_lt cut]
    · simp [stuck, Outcome.andThen]

/-- Of the payloads that are taken for server hellos, these two kinds are read out of range. -/
theorem parseServerHelloV3_ne_panic_iff (payload : Bytes) :
    parseServerHelloV3 payload ≠ .panic ↔
      (payload[5]? = some 0x02 → ¬EndsInLength payload ∧ ¬Overruns payload) := by
  constructor
  · intro safe server
    constructor
    · rintro ⟨suite, tail, before, short⟩
      exact safe (parseServerHelloV3_of_short before server short)
    · rintro ⟨suite, length, rest, upTo, overruns⟩
      exact safe ((parseServerHelloV3_upTo_eq_panic_iff upTo server).mpr
        ⟨suite, length, rest, upTo, overruns⟩)
  · intro condition panics
    have kept (error : String) : parseServerHelloV3 payload ≠ .err error := by simp [panics]
    obtain ⟨server, suite, tail, before⟩ := exists_serverHelloBefore kept
    obtain ⟨whole, inside⟩ := condition server
    by_cases short : tail.length < 2
    · exact whole ⟨suite, tail, before, short⟩
    · obtain ⟨length, rest, rfl⟩ := exists_ofUInt16_append (Nat.le_of_not_lt short)
      exact inside ((parseServerHelloV3_upTo_eq_panic_iff before server).mp panics)

def cutBehindCompression : Bytes := (plainServerHello.record 3).take 47

/-- The parser reads behind the end of a payload that is dispatched to it. -/
theorem cutBehindCompression_panics :
    6 ≤ cutBehindCompression.length ∧ isTlsHandshake cutBehindCompression ∧
      parseServerHelloV3 cutBehindCompression = .panic := by
  refine ⟨by decide, by decide, ?_⟩
  have before : ServerHelloBefore cutBehindCompression 0x1301 [] :=
    ⟨cutBehindCompression.take 43, [], 0, by decide, by decide, by decide⟩
  exact parseServerHelloV3_of_short before (by decide) (by decide)

end PqcUtils.Dump

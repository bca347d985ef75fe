import PqcUtils.Dump.Tls.Bounds

/-!
# Whole server hellos, and those that are cut

Of a whole server hello the parser returns the group of its key share. One that is
cut in its extensions is accepted as well, without a group, so what follows it can
change the result.
-/

namespace PqcUtils.Dump

open Bytes Wire

/-! ## Whole hellos -/

theorem keyShareEntries_answeredHello (hello : AnsweredHello) :
    singleGroup (keyShareEntries hello.extensions []) = hello.group := by
  rw [keyShareEntries_eq, hello.lastKeyShares_extensions, AnsweredHello.group]
  cases isShare : hello.share with
  | none => rfl
  | some share =>
    have whole : Tagged.split share.encode = ([share], []) := by
      have fits : ∀ item ∈ [share], item.Fits := by simpa using hello.fits_share isShare
      simpa using Tagged.split_flatMap fits
    simp only [Option.map_some, Option.getD_some, whole]
    rfl

/-- Every server hello is decoded, whatever its headers say and whatever follows it. -/
theorem parseServerHelloV3_answeredHello (hello : AnsweredHello) (trailing : Bytes) :
    parseServerHelloV3 (hello.encode ++ trailing) =
      .ok ⟨[hello.cipherSuite], hello.group.getD 0⟩ := by
  have nine : (hello.recordHeader ++ (0x02 :: hello.handshakeLength)).length = 9 := by
    simp [hello.length_recordHeader, hello.length_handshakeLength]
  have upTo : ServerHelloUpTo (hello.encode ++ trailing) _ _ _ := hello.upTo_body nine trailing
  have server : (hello.encode ++ trailing)[5]? = some 0x02 := by
    simp [AnsweredHello.encode, hello.length_recordHeader]
  obtain ⟨number, block⟩ := hello.take_extensionBytes trailing
  rw [parseServerHelloV3_upTo upTo server, number, block, if_neg (by simp), parseExtensions,
    parseExtensionsFrom_eq, List.drop_zero, hello.split_extensionBytes,
    Tagged.cutOff_of_short (show ([] : Bytes).length < 4 by decide)]
  simp [Outcome.andThen, keyShareEntries_answeredHello]

example : ∃ hello : AnsweredHello,
    parseServerHelloV3 (hello.encode ++ [0xff]) = .ok ⟨[0x1301], 0x11ec⟩ := by
  refine ⟨⟨⟨0x0303, .replicate 32 0, [], 0x1301, 0, [⟨0x002b, [0x03, 0x04]⟩,
    ⟨Wire.keyShareType, [0x11, 0xec, 0x00, 0x01, 9]⟩], ?_, ?_, ?_, ?_⟩,
    [0x16, 0x03, 0x03, 0x00, 0x00], [0x00, 0x00, 0x00], some ⟨0x11ec, [9]⟩, ?_, ?_, ?_⟩, ?_⟩
  all_goals decide +kernel

/-! ## Hellos that are cut -/

def CutInExtensions (payload : Bytes) : Prop :=
  ∃ suite length rest, ServerHelloUpTo payload suite length rest ∧ rest.length < length.toNat

theorem cutInExtensions_iff {payload rest : Bytes} {suite length : UInt16}
    (upTo : ServerHelloUpTo payload suite length rest) :
    CutInExtensions payload ↔ rest.length < length.toNat := by
  constructor
  · rintro ⟨suite', length', rest', upTo', cut⟩
    obtain ⟨-, rfl, rfl⟩ := upTo.unique upTo'
    exact cut
  · exact fun cut => ⟨suite, length, rest, upTo, cut⟩

theorem serverHelloUpTo_append {payload rest : Bytes} {suite length : UInt16}
    (upTo : ServerHelloUpTo payload suite length rest) (more : Bytes) :
    ServerHelloUpTo (payload ++ more) suite length (rest ++ more) := by
  obtain ⟨front, sessionId, compression, length_front, short, rfl⟩ := upTo
  exact ⟨front, sessionId, compression, length_front, short, by simp⟩

theorem parseServerHelloV3_eq_zero_iff {payload rest : Bytes} {suite length : UInt16}
    (upTo : ServerHelloUpTo payload suite length rest) (server : payload[5]? = some 0x02) :
    parseServerHelloV3 payload = .ok ⟨[suite], 0⟩ ↔
      ¬Overruns payload ∧ ∀ group, Chooses payload group → group = 0 := by
  rw [← parseServerHelloV3_upTo_eq_panic_iff upTo server]
  constructor
  · intro parsed
    refine ⟨by simp [parsed], fun group chooses => ?_⟩
    rcases keyshare_of_parsed parsed with ⟨chosen, choosesChosen, zero⟩ | ⟨nothing, -⟩
    · exact (chooses.unique choosesChosen).trans zero.symm
    · exact absurd chooses (nothing group)
  · rintro ⟨safe, onlyZero⟩
    cases parsed : parseServerHelloV3 payload with
    | ok result =>
      have ciphers := ciphers_of_parsed parsed upTo server
      have keyshare : result.keyshare = 0 := by
        rcases keyshare_of_parsed parsed with ⟨chosen, chooses, same⟩ | ⟨-, zero⟩
        · exact same.trans (onlyZero chosen chooses)
        · exact zero
      rw [← ciphers, ← keyshare]
    | err error => exact absurd parsed (parseServerHelloV3_ne_err upTo server error)
    | panic => exact absurd parsed safe

/-- An accepted hello keeps its result in front of more data unless it is cut and the whole one
chooses a group or overruns. -/
theorem parseServerHelloV3_append_iff {payload : Bytes} {result : SessionConfig}
    (parsed : parseServerHelloV3 payload = .ok result) (more : Bytes) :
    parseServerHelloV3 (payload ++ more) = .ok result ↔
      (CutInExtensions payload → ¬Overruns (payload ++ more) ∧
        ∀ group, Chooses (payload ++ more) group → group = 0) := by
  obtain ⟨server, suite, length, rest, upTo⟩ := exists_serverHelloUpTo parsed
  have upToMore := serverHelloUpTo_append upTo more
  have serverMore : (payload ++ more)[5]? = some 0x02 := by
    rw [List.getElem?_append_left (List.getElem?_eq_some_iff.mp server).1, server]
  rw [parseServerHelloV3_upTo upTo server] at parsed
  by_cases cut : rest.length < length.toNat
  · rw [if_pos cut] at parsed
    cases parsed
    rw [parseServerHelloV3_eq_zero_iff upToMore serverMore, cutInExtensions_iff upTo,
      forall_prop_of_true cut]
  · -- All that is looked at stands in the payload.
    rw [if_neg cut] at parsed
    rw [cutInExtensions_iff upTo, parseServerHelloV3_upTo upToMore serverMore,
      if_neg (by rw [List.length_append]; omega),
      List.take_append_of_le_length (Nat.le_of_not_lt cut), parsed]
    simp [cut]

def cutAnswer : Bytes := (answer.record 3).take 52

theorem parse_cutAnswer : parseServerHelloV3 cutAnswer = .ok ⟨[0x1301], 0⟩ := by
  have upTo : ServerHelloUpTo cutAnswer 0x1301 9 [0x00, 0x33, 0x00] :=
    ⟨cutAnswer.take 43, [], 0, by decide, by decide, by decide⟩
  rw [parseServerHelloV3_upTo upTo (by decide), if_pos (by decide)]

/-- The cut answer is recorded with the group zero, the whole one with its group. -/
theorem cutAnswer_disagrees :
    parseServerHelloV3 cutAnswer = .ok ⟨[0x1301], 0⟩ ∧
      parseServerHelloV3 (cutAnswer ++ (answer.record 3).drop 52) = .ok ⟨[0x1301], 0x001d⟩ := by
  refine ⟨parse_cutAnswer, ?_⟩
  decide +kernel

theorem cutAnswer_still_cut :
    parseServerHelloV3 (cutAnswer ++ [5]) = .ok ⟨[0x1301], 0⟩ ↔
      (CutInExtensions cutAnswer → ¬Overruns (cutAnswer ++ [5]) ∧
        ∀ group, Chooses (cutAnswer ++ [5]) group → group = 0) :=
  parseServerHelloV3_append_iff parse_cutAnswer [5]

end PqcUtils.Dump

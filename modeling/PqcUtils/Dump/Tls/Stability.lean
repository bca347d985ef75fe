import PqcUtils.Dump.Recording
import PqcUtils.Dump.Tls.Reading
import PqcUtils.Library.Stable

/-!
# A client hello and what follows it

What the client hello parser has accepted it accepts with anything behind it, and
with the same result.
-/

namespace PqcUtils.Dump

open Bytes Wire

theorem stable_readCipherSuites (count offset : Nat) :
    Stable fun data => readCipherSuites data count offset := by
  induction count generalizing offset with
  | zero => exact .const _
  | succ count ih =>
    exact (Stable.index16 offset).bind fun _ => (ih (offset + 2)).bind fun _ => .const _

theorem stable_parseHelloHead : Stable parseHelloHead := by
  unfold parseHelloHead
  refine (Stable.rejectIf_lt _ _).bind fun _ => ?_
  refine (Stable.rejectIf_le _ _).bind fun _ => ?_
  refine (Stable.index _).bind fun sessionIdLen => ?_
  refine (Stable.rejectIf_lt _ _).bind fun _ => ?_
  refine (Stable.rejectIf_lt _ _).bind fun _ => ?_
  refine (Stable.index16 _).bind fun cipherSuitesLen => ?_
  refine (Stable.rejectIf_lt _ _).bind fun _ => ?_
  refine (stable_readCipherSuites _ _).bind fun ⟨cipherSuites, offset⟩ => ?_
  refine (Stable.rejectIf_le _ _).bind fun _ => ?_
  refine (Stable.index _).bind fun compLen => ?_
  refine (Stable.rejectIf_lt _ _).bind fun _ => ?_
  refine (Stable.index16 _).bind fun extensionsLen => ?_
  exact (Stable.rejectIf_lt _ _).bind fun _ => .const _

/-- The extensions of an accepted hello are a part of it, so they are the same in front of more
data. -/
theorem stable_parseSslV3ClientHello : Stable parseSslV3ClientHello := by
  intro payload more result parsed
  obtain ⟨head, readHead, parsed⟩ := Outcome.bind_eq_ok_iff.mp parsed
  obtain ⟨block, rest, inside, remaining, ends⟩ := exists_block readHead
  have remainingMore : (payload ++ more).drop head.offset = block ++ (rest ++ more) := by
    rw [List.drop_append_of_le_length inside, remaining, List.append_assoc]
  rw [readExtensions_eq_blockGroups remaining ends] at parsed
  rw [parseSslV3ClientHello, stable_parseHelloHead payload more head readHead, Outcome.ok_bind,
    readExtensions_eq_blockGroups remainingMore ends]
  exact parsed

theorem parseSslV3ClientHello_append {payload : Bytes} {result : CryptoConfig}
    (parsed : parseSslV3ClientHello payload = .ok result) (more : Bytes) :
    parseSslV3ClientHello (payload ++ more) = .ok result :=
  stable_parseSslV3ClientHello payload more result parsed

theorem parseSslV3ClientHello_smallHello_append :
    parseSslV3ClientHello (smallHello.record 1 ++ [22, 3, 1]) = .ok ⟨[0x1301], [0x001d]⟩ := by
  obtain ⟨front, length_front, split⟩ := smallHello.record_eq 1
  have parsed := parseSslV3ClientHello_vectors smallHello length_front []
  rw [List.append_nil, ← split] at parsed
  exact parseSslV3ClientHello_append parsed [22, 3, 1]

end PqcUtils.Dump

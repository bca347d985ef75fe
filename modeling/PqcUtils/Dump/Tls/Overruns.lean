import PqcUtils.Dump.Tls.Bounds

/-!
# Extensions that overrun their block

The walk over the extensions of a server hello notices that an extension declares
more bytes than are left of the block, and goes on. The walk ends there, as all
that is left is passed over, unless the content of the extension is sliced.
-/

namespace PqcUtils.Dump

open Bytes Wire

/-! ## Blocks -/

def lastEntries (complete : List Tagged) : Outcome String (List KeyShareEntry) :=
  match lastKeyShares complete with
  | some extension => parseKeyShare extension.content
  | none => .ok []

/-- The walk yields the entries of the extensions that are complete, and reads nothing out of
range. -/
def StopsCleanly (block : Bytes) : Prop :=
  ∃ complete tail entries, Tagged.Splits block complete tail ∧
    parseExtensions block = .ok entries ∧ lastEntries complete = .ok entries

/-- The block is complete extensions in front of one with key shares or signature algorithms that
declares more bytes than are left. -/
def EndsInOverrun (block : Bytes) : Prop :=
  ∃ (complete : List Tagged) (tag length : UInt16) (rest : Bytes),
    (∀ extension ∈ complete, extension.Fits) ∧ (tag = 0x0033 ∨ tag = 0x000d) ∧
      rest.length < length.toNat ∧
      block = complete.flatMap Tagged.encode ++ (ofUInt16 tag ++ (ofUInt16 length ++ rest))

theorem lastEntries_eq (complete : List Tagged) :
    lastEntries complete = .ok (keyShareEntries complete []) := by
  rw [lastEntries, keyShareEntries_eq]
  cases lastKeyShares complete with
  | none => rfl
  | some extension => exact parseKeyShare_eq extension.content

section Splits

variable {block tail : Bytes} {complete : List Tagged} (splits : Tagged.Splits block complete tail)

include splits

/-- The walk, by what stands behind the complete extensions. -/
theorem parseExtensions_of_splits :
    parseExtensions block =
      if (Tagged.cutOff tail).any sliced then .panic else lastEntries complete := by
  rw [parseExtensions, parseExtensionsFrom_eq, List.drop_zero, splits.split_eq, lastEntries_eq]

theorem endsInOverrun_iff_of_splits :
    EndsInOverrun block ↔ (Tagged.cutOff tail).any sliced := by
  rw [Option.any_eq_true]
  constructor
  · rintro ⟨complete', tag, length, rest, fits, looked, more, split⟩
    have cut : Tagged.cutOff (ofUInt16 tag ++ (ofUInt16 length ++ rest)) = some tag :=
      Tagged.cutOff_eq_some_iff.mpr ⟨length, rest, rfl, more⟩
    have splits' : Tagged.Splits block complete' (ofUInt16 tag ++ (ofUInt16 length ++ rest)) :=
      ⟨split, fits, .inr (by rw [cut]; rfl)⟩
    -- The block is split in one way.
    cases splits.split_eq.symm.trans splits'.split_eq
    exact ⟨tag, cut, by simpa [sliced] using looked⟩
  · rintro ⟨tag, cut, looked⟩
    obtain ⟨length, rest, rfl, more⟩ := Tagged.cutOff_eq_some_iff.mp cut
    exact ⟨complete, tag, length, rest, splits.fits, by simpa [sliced] using looked, more,
      splits.eq⟩

end Splits

theorem parseExtensions_of_overrun {block : Bytes} (overrun : EndsInOverrun block) :
    parseExtensions block = .panic := by
  have splits := Tagged.splits_split block
  rw [endsInOverrun_iff_of_splits splits] at overrun
  rw [parseExtensions_of_splits splits, if_pos overrun]

theorem not_stopsCleanly_of_overrun {block : Bytes} (overrun : EndsInOverrun block) :
    ¬StopsCleanly block := by
  rintro ⟨complete, tail, entries, splits, read, -⟩
  rw [parseExtensions_of_overrun overrun] at read
  cases read

/-- The walk stops cleanly at all extensions but those whose content it slices. -/
theorem stopsCleanly_iff (block : Bytes) : StopsCleanly block ↔ ¬EndsInOverrun block := by
  constructor
  · exact fun clean overrun => not_stopsCleanly_of_overrun overrun clean
  · intro whole
    have splits := Tagged.splits_split block
    rw [endsInOverrun_iff_of_splits splits] at whole
    have entries := lastEntries_eq (Tagged.split block).1
    refine ⟨_, _, _, splits, ?_, entries⟩
    rw [parseExtensions_of_splits splits, if_neg whole, entries]

/-! ## Server hellos -/

theorem overruns_iff_endsInOverrun {payload block rest : Bytes} {suite length : UInt16}
    (upTo : ServerHelloUpTo payload suite length (block ++ rest))
    (whole : block.length = length.toNat) : Overruns payload ↔ EndsInOverrun block := by
  rw [overruns_iff upTo, ← whole, List.take_left,
    endsInOverrun_iff_of_splits (Tagged.splits_split block), List.length_append]
  exact and_iff_right (Nat.le_add_right _ _)

/-- From a hello with all its extensions the analysis goes on exactly if their block ends in no
overrun. -/
theorem parseServerHelloV3_of_block {payload block rest : Bytes} {suite length : UInt16}
    (upTo : ServerHelloUpTo payload suite length (block ++ rest))
    (whole : block.length = length.toNat) (server : payload[5]? = some 0x02) :
    parseServerHelloV3 payload = .panic ↔ EndsInOverrun block := by
  rw [parseServerHelloV3_upTo_eq_panic_iff upTo server, overruns_iff_endsInOverrun upTo whole]

/-- A key share of one byte, and the header of four bytes of signature algorithms. -/
def overrunningBlock : Bytes :=
  [0x00, 0x33, 0x00, 0x05, 0x11, 0xec, 0x00, 0x01, 0xaa, 0x00, 0x0d, 0x00, 0x04]

def overrunningHello : Bytes :=
  [0x16, 0x03, 0x03, 0x00, 0x39, 0x02, 0x00, 0x00, 0x35, 0x03, 0x03] ++ List.replicate 32 0 ++
    [0x00, 0x13, 0x01, 0x00, 0x00, 0x0d] ++ overrunningBlock

/-- The entry is lost with the analysis. -/
theorem overrunningBlock_panics :
    lastEntries [⟨0x0033, [0x11, 0xec, 0x00, 0x01, 0xaa]⟩] = .ok [⟨0x11ec, [0xaa]⟩] ∧
      parseExtensions overrunningBlock = .panic ∧ ¬StopsCleanly overrunningBlock ∧
      isTlsHandshake overrunningHello ∧ parseServerHelloV3 overrunningHello = .panic := by
  have overrun : EndsInOverrun overrunningBlock :=
    ⟨[⟨0x0033, [0x11, 0xec, 0x00, 0x01, 0xaa]⟩], 0x000d, 4, [], by decide, .inr rfl, by decide, rfl⟩
  have upTo : ServerHelloUpTo overrunningHello 0x1301 13 (overrunningBlock ++ []) :=
    ⟨overrunningHello.take 43, [], 0, by decide, by decide, by decide⟩
  refine ⟨?_, parseExtensions_of_overrun overrun, not_stopsCleanly_of_overrun overrun, by decide,
    (parseServerHelloV3_of_block upTo (by decide) rfl).mpr overrun⟩
  rw [lastEntries_eq]
  decide +kernel

end PqcUtils.Dump

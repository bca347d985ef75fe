import PqcUtils.Dump.Packet
import PqcUtils.Library.Keyed
import PqcUtils.Library.Runs

/-!
# What the joiner joins

The reassembler is a table of joiners, one for each flow. A joiner remembers
where the latest segment with data ended, and keeps that segment if it was out of
sequence. So it joins two segments at most, and never across a gap.
-/

namespace PqcUtils.Dump

structure Segment where
  seq : UInt32
  payload : Bytes
  deriving DecidableEq, Repr

namespace Segment

def stop (segment : Segment) : UInt32 := segment.seq + .ofNat segment.payload.length

def latest (segments : List Segment) : Option Segment :=
  (segments.filter fun segment => segment.payload ≠ []).getLast?

theorem latest_append_empty (segments : List Segment) {segment : Segment}
    (empty : segment.payload = []) : latest (segments ++ [segment]) = latest segments := by
  simp [latest, empty]

theorem latest_append_nonempty (segments : List Segment) {segment : Segment}
    (nonempty : segment.payload ≠ []) : latest (segments ++ [segment]) = some segment := by
  simp [latest, nonempty]

end Segment

/-! ## One joiner -/

namespace TcpJoiner

theorem push_empty (joiner : TcpJoiner) (seq : UInt32) : joiner.push seq [] = (none, joiner) := rfl

theorem push_outOfSequence (joiner : TcpJoiner) {segment : Segment}
    (nonempty : segment.payload ≠ []) (gap : segment.seq ≠ joiner.nextSeq) :
    joiner.push segment.seq segment.payload = (none, ⟨segment.stop, segment.payload⟩) := by
  simp [push, nonempty, gap, Segment.stop]

/-- The joiner waits behind the latest segment, and holds either nothing or that segment. -/
def Follows (past : List Segment) (joiner : TcpJoiner) : Prop :=
  ∃ last, Segment.latest past = some last ∧ joiner.nextSeq = last.stop ∧
    (joiner.buffer = [] ∨ joiner.buffer = last.payload)

/-- Behind a segment with data the joiner waits where the segment ends, whatever it held. -/
theorem follows_push (past : List Segment) (joiner : TcpJoiner) {segment : Segment}
    (nonempty : segment.payload ≠ []) :
    Follows (past ++ [segment]) (joiner.push segment.seq segment.payload).2 := by
  refine ⟨segment, Segment.latest_append_nonempty past nonempty, ?_⟩
  by_cases inSequence : segment.seq = joiner.nextSeq
  · rw [inSequence, push_inSequence joiner nonempty, Segment.stop, inSequence]
    exact ⟨rfl, .inl rfl⟩
  · rw [push_outOfSequence joiner nonempty inSequence]
    exact ⟨rfl, .inr rfl⟩

theorem Follows.push {past : List Segment} {joiner : TcpJoiner} (follows : Follows past joiner)
    (segment : Segment) :
    Follows (past ++ [segment]) (joiner.push segment.seq segment.payload).2 := by
  by_cases empty : segment.payload = []
  · obtain ⟨last, isLast, waits, holds⟩ := follows
    rw [empty, push_empty]
    exact ⟨last, (Segment.latest_append_empty past empty).trans isLast, waits, holds⟩
  · exact follows_push past joiner empty

end TcpJoiner

/-- What a push may answer, told from the earlier segments of its flow. -/
structure Joins (past : List Segment) (segment : Segment) (joined : Option Bytes) : Prop where
  empty : segment.payload = [] → joined = none
  none_iff : segment.payload ≠ [] →
    (joined = none ↔ ∃ last, Segment.latest past = some last ∧ segment.seq ≠ last.stop)
  contiguous : ∀ bytes, joined = some bytes → bytes = segment.payload ∨
    ∃ last, Segment.latest past = some last ∧ segment.seq = last.stop ∧
      bytes = last.payload ++ segment.payload

namespace TcpJoiner

theorem joins_new (segment : Segment) :
    Joins [] segment ((new segment.seq).push segment.seq segment.payload).1 := by
  by_cases empty : segment.payload = []
  · rw [empty, push_empty]
    exact ⟨fun _ => rfl, fun nonempty => absurd empty nonempty, by simp⟩
  · have pushed : ((new segment.seq).push segment.seq segment.payload).1 = some segment.payload :=
      congrArg Prod.fst (push_inSequence (new segment.seq) empty)
    rw [pushed]
    refine ⟨fun nothing => absurd nothing empty, ?_, ?_⟩
    · simp [Segment.latest]
    · rintro bytes ⟨⟩
      exact .inl rfl

theorem Follows.joins {past : List Segment} {joiner : TcpJoiner} (follows : Follows past joiner)
    (segment : Segment) : Joins past segment (joiner.push segment.seq segment.payload).1 := by
  obtain ⟨last, isLast, waits, holds⟩ := follows
  by_cases empty : segment.payload = []
  · rw [empty, push_empty]
    exact ⟨fun _ => rfl, fun nonempty => absurd empty nonempty, by simp⟩
  have missed (nothing : segment.payload = []) :
      (joiner.push segment.seq segment.payload).1 = none := absurd nothing empty
  by_cases inSequence : segment.seq = joiner.nextSeq
  · have pushed : (joiner.push segment.seq segment.payload).1 =
        some (joiner.buffer ++ segment.payload) := by
      rw [inSequence, push_inSequence joiner empty]
    rw [pushed] at missed ⊢
    refine ⟨missed, fun _ => ?_, ?_⟩
    · simp [isLast, inSequence, waits]
    · rintro bytes ⟨⟩
      rcases holds with nothing | held
      · exact .inl (by rw [nothing, List.nil_append])
      · exact .inr ⟨last, isLast, inSequence.trans waits, by rw [held]⟩
  · have pushed : (joiner.push segment.seq segment.payload).1 = none := by
      rw [push_outOfSequence joiner empty inSequence]
    rw [pushed] at missed ⊢
    refine ⟨missed, fun _ => ?_, by simp⟩
    simpa [isLast] using waits ▸ inSequence

end TcpJoiner

/-! ## All flows -/

/-- A joiner as a machine that is started by its first segment. -/
def joinerMachine : Machine TcpJoiner Segment (Option Bytes) where
  start segment := TcpJoiner.new segment.seq
  step joiner segment := joiner.push segment.seq segment.payload

namespace TcpReassembler

def pushAll : TcpReassembler → List (TcpFlowKey × Segment) → List (TcpFlowKey × Option Bytes)
  | _, [] => []
  | flows, (key, segment) :: pushes =>
    let (joined, flows) := flows.push key segment.seq segment.payload
    (key, joined) :: pushAll flows pushes

/-- The reassembler is a table of joiners. -/
theorem pushAll_eq_outputs (flows : TcpReassembler) (pushes : List (TcpFlowKey × Segment)) :
    pushAll flows pushes = joinerMachine.outputs flows pushes := by
  induction pushes generalizing flows with
  | nil => rfl
  | cons push pushes ih =>
    exact congrArg (List.cons _) (ih _)

def StartsWithData (pushes : List (TcpFlowKey × Segment)) : Prop :=
  ∀ key, ∀ first ∈ (Machine.inputsFor key pushes).head?, first.payload ≠ []

theorem follows_of_startsWithData {pushes : List (TcpFlowKey × Segment)}
    (started : StartsWithData pushes) (turn : Nat) (key : TcpFlowKey) {joiner : TcpJoiner}
    (reached : joinerMachine.alone none (Machine.inputsFor key (pushes.take turn)) = some joiner) :
    TcpJoiner.Follows (Machine.inputsFor key (pushes.take turn)) joiner := by
  refine joinerMachine.history_of_alone TcpJoiner.Follows ?_ ?_ reached
  · exact fun past joiner segment follows => follows.push segment
  · intro first atHead
    obtain ⟨rest, split⟩ := Machine.inputsFor_take_isPrefix key pushes turn
    refine TcpJoiner.follows_push [] (TcpJoiner.new first.seq) (started key first ?_)
    rw [← split, List.head?_append, atHead]
    rfl

/-- Every answer is told from the earlier segments of its flow, and no flow has a part in the
answers of another. -/
structure JoinsFlows (pushes : List (TcpFlowKey × Segment)) : Prop where
  joins : ∀ turn key segment, pushes[turn]? = some (key, segment) →
    ∃ joined, (pushAll ∅ pushes)[turn]? = some (key, joined) ∧
      Joins (Machine.inputsFor key (pushes.take turn)) segment joined
  apart : ∀ key, (pushAll ∅ pushes).filter (fun entry => entry.1 = key) =
    pushAll ∅ (pushes.filter fun entry => entry.1 = key)

/-- Pushes over any flows, in any order. -/
theorem joinsFlows_of_startsWithData (pushes : List (TcpFlowKey × Segment))
    (started : StartsWithData pushes) : JoinsFlows pushes := by
  constructor
  · intro turn key segment atTurn
    have answer := joinerMachine.getElem?_outputs ∅ atTurn
    rw [← pushAll_eq_outputs] at answer
    refine ⟨_, answer, ?_⟩
    have found := joinerMachine.lookup_after ∅ (pushes.take turn) key
    rw [Finmap.lookup_empty] at found
    simp only [Machine.feed, found]
    cases reached : joinerMachine.alone none (Machine.inputsFor key (pushes.take turn)) with
    | none =>
      have nothing : Machine.inputsFor key (pushes.take turn) = [] := by
        by_contra nonempty
        exact joinerMachine.alone_ne_none nonempty none reached
      rw [nothing]
      exact TcpJoiner.joins_new segment
    | some joiner => exact (follows_of_startsWithData started turn key reached).joins segment
  · intro key
    rw [pushAll_eq_outputs, pushAll_eq_outputs]
    exact joinerMachine.filter_outputs key rfl pushes

/-- Two flows in turn; the second segment of the first flow leaves a gap, the third follows it. -/
def twoFlows : List (TcpFlowKey × Segment) :=
  [(⟨"a", "b", 1, 2⟩, ⟨10, [1]⟩), (⟨"b", "a", 2, 1⟩, ⟨10, [2]⟩), (⟨"a", "b", 1, 2⟩, ⟨20, [3, 4]⟩),
    (⟨"a", "b", 1, 2⟩, ⟨22, [5]⟩)]

theorem twoFlows_startsWithData : StartsWithData twoFlows := by
  intro key first atHead
  have data : ∀ entry ∈ twoFlows, entry.2.payload ≠ [] := by decide
  have among : first ∈ Machine.inputsFor key twoFlows := List.mem_of_mem_head? atHead
  simp only [Machine.inputsFor, List.mem_map, List.mem_filter] at among
  obtain ⟨entry, ⟨membership, -⟩, rfl⟩ := among
  exact data entry membership

theorem joinsFlows_twoFlows : JoinsFlows twoFlows :=
  joinsFlows_of_startsWithData twoFlows twoFlows_startsWithData

end TcpReassembler

/-! ## Additions that overflow -/

/-- `a + b` in a build that checks additions. -/
def checkedAdd (a b : UInt32) : Option UInt32 :=
  if a.toNat + b.toNat < 2 ^ 32 then some (a + b) else none

namespace TcpJoiner

/-- `push` in a build that checks additions; `none` if it panics. -/
def pushChecked (joiner : TcpJoiner) (seq : UInt32) (payload : Bytes) :
    Option (Option Bytes × TcpJoiner) :=
  if payload.isEmpty then
    some (none, joiner)
  else if seq = joiner.nextSeq then do
    let nextSeq ← checkedAdd joiner.nextSeq (.ofNat payload.length)
    some (some (joiner.buffer ++ payload), ⟨nextSeq, []⟩)
  else do
    let nextSeq ← checkedAdd seq (.ofNat payload.length)
    some (none, ⟨nextSeq, payload⟩)

def StaysInRange (segment : Segment) : Prop :=
  segment.payload ≠ [] → segment.seq.toNat + segment.payload.length % 2 ^ 32 < 2 ^ 32

theorem pushChecked_of_staysInRange (joiner : TcpJoiner) {segment : Segment}
    (small : StaysInRange segment) : joiner.pushChecked segment.seq segment.payload =
      some (joiner.push segment.seq segment.payload) := by
  by_cases empty : segment.payload = []
  · simp [pushChecked, push, empty]
  · have added : checkedAdd segment.seq (.ofNat segment.payload.length) = some segment.stop :=
      if_pos (small empty)
    by_cases inSequence : segment.seq = joiner.nextSeq
    · rw [inSequence] at added
      simp [pushChecked, push, empty, inSequence, added, Segment.stop]
    · simp [pushChecked, push, empty, inSequence, added, Segment.stop]

theorem pushChecked_of_not_staysInRange (joiner : TcpJoiner) {segment : Segment}
    (large : ¬StaysInRange segment) : joiner.pushChecked segment.seq segment.payload = none := by
  obtain ⟨nonempty, large⟩ := Classical.not_imp.mp large
  have overflows : checkedAdd segment.seq (.ofNat segment.payload.length) = none := if_neg large
  by_cases inSequence : segment.seq = joiner.nextSeq
  · rw [inSequence] at overflows
    simp [pushChecked, nonempty, inSequence, overflows]
  · simp [pushChecked, nonempty, inSequence, overflows]

def checkedStep (joiner : TcpJoiner) (segment : Segment) : Option TcpJoiner :=
  (joiner.pushChecked segment.seq segment.payload).map Prod.snd

def pushed (joiner : TcpJoiner) (segments : List Segment) : TcpJoiner :=
  segments.foldl (fun joiner segment => (joiner.push segment.seq segment.payload).2) joiner

/-- Behind each segment with data, one that starts where it ends is taken as its successor. -/
def Continues (first : UInt32) (segments : List Segment) : Prop :=
  ∀ past segment later, segments = past ++ segment :: later → segment.payload ≠ [] →
    ∀ payload ≠ [], (((new first).pushed (past ++ [segment])).push segment.stop payload).1 ≠ none

theorem continues (first : UInt32) (segments : List Segment) : Continues first segments := by
  intro past segment later _ nonempty payload more
  obtain ⟨last, isLast, waits, -⟩ :=
    follows_push past ((new first).pushed past) nonempty
  rw [Segment.latest_append_nonempty past nonempty, Option.some.injEq] at isLast
  subst isLast
  rw [pushed, List.foldl_append]
  simp only [List.foldl_cons, List.foldl_nil]
  rw [← pushed, ← waits, push_inSequence _ more]
  simp

theorem run_checkedStep_ne_none_iff (joiner : TcpJoiner) (segments : List Segment) :
    Runs.run checkedStep joiner segments ≠ none ↔ ∀ segment ∈ segments, StaysInRange segment := by
  induction segments generalizing joiner with
  | nil => simp
  | cons segment segments ih =>
    rw [Runs.run_cons, List.forall_mem_cons]
    by_cases small : StaysInRange segment
    · simp [checkedStep, pushChecked_of_staysInRange joiner small, ih, small]
    · simp [checkedStep, pushChecked_of_not_staysInRange joiner small, small]

/-- A run gets by without an overflow when no segment with data crosses the limit. -/
theorem wraps_iff (first : UInt32) (segments : List Segment) :
    (Runs.run checkedStep (new first) segments ≠ none ∧ Continues first segments) ↔
      ∀ segment ∈ segments, StaysInRange segment := by
  rw [run_checkedStep_ne_none_iff, and_iff_left (continues first segments)]

/-- Both additions overflow: in the first segment of a flow, and behind a gap. -/
theorem checkedStep_overflows :
    Runs.run checkedStep (new 0xFFFFFFFF) [⟨0xFFFFFFFF, [1]⟩] = none ∧
      Runs.run checkedStep (new 0) [⟨0, [1]⟩, ⟨0xFFFFFFFF, [1]⟩] = none := by
  decide

end TcpJoiner

end PqcUtils.Dump

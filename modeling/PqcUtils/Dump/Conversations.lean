import PqcUtils.Dump.Handshakes

/-!
# A conversation in a capture

Both sides of a connection speak in turns, each turn in one segment, and each side
numbers its segments in sequence. The reassembler then joins nothing, so every
payload of the connection is dispatched by itself, whatever else is captured.
-/

namespace PqcUtils.Dump

open Net Runs

/-- One segment of a conversation: which side sends it, and its payload. -/
structure Turn where
  fromClient : Bool
  payload : Bytes

namespace Sender

def side (client : Sender) (fromClient : Bool) : Sender :=
  if fromClient then client else client.reverse

/-- The packets of the turns, from the sequence number that each side has reached. -/
def conversation (client : Sender) : (Bool → UInt32) → List Turn → List (Option SlicedPacket)
  | _, [] => []
  | next, turn :: turns =>
    let seq := next turn.fromClient
    some ((client.side turn.fromClient).packet seq turn.payload) ::
      client.conversation
        (Function.update next turn.fromClient (seq + .ofNat turn.payload.length)) turns

theorem side_endpoint_reverse (client : Sender) (fromClient : Bool) :
    (client.side fromClient).reverse.endpoint = (client.side !fromClient).endpoint := by
  cases fromClient <;> rfl

theorem flow_side_inj {client : Sender} (distinct : client.endpoint ≠ client.reverse.endpoint)
    {first second : Bool} :
    (client.side first).flow = (client.side second).flow ↔ first = second := by
  constructor
  · intro same
    simp only [Sender.flow, TcpFlowKey.mk.injEq, display_injective.eq_iff] at same
    cases first <;> cases second
    · rfl
    · exact absurd (Prod.ext same.2.1 same.2.2.2) distinct
    · exact absurd (Prod.ext same.1 same.2.2.1) distinct
    · rfl
  · rintro rfl
    rfl

end Sender

section InStep

variable {client : Sender} {flows : TcpReassembler} {next : Bool → UInt32}

/-- The reassembler waits for the next segment of either side, or has not seen the side yet. -/
def InStep (client : Sender) (flows : TcpReassembler) (next : Bool → UInt32) : Prop :=
  ∀ fromClient, flows.lookup (client.side fromClient).flow = none ∨
    flows.lookup (client.side fromClient).flow = some (TcpJoiner.new (next fromClient))

theorem inStep_empty (client : Sender) (next : Bool → UInt32) : InStep client ∅ next :=
  fun _ => .inl rfl

theorem InStep.dispatchesOf (inStep : InStep client flows next)
    (distinct : client.endpoint ≠ client.reverse.endpoint) {turn : Turn}
    (long : 6 ≤ turn.payload.length) :
    let packet := (client.side turn.fromClient).packet (next turn.fromClient) turn.payload
    let dispatched := Dump.dispatchesOf flows (some packet)
    dispatched.1 = [(packet, turn.payload), (packet, turn.payload)] ∧
      InStep client dispatched.2 (Function.update next turn.fromClient
        (next turn.fromClient + .ofNat turn.payload.length)) := by
  have nonempty : turn.payload ≠ [] :=
    List.ne_nil_of_length_pos (Nat.lt_of_lt_of_le (by decide) long)
  have pushed := TcpReassembler.push_inSequence flows nonempty (inStep turn.fromClient)
  have dispatched := dispatchesOf_of_carries
    ((client.side turn.fromClient).carries (next turn.fromClient) long) flows
  have own : flows.push (tcpFlowKey (client.side turn.fromClient).source
      (client.side turn.fromClient).destination ((client.side turn.fromClient).segment
        (next turn.fromClient) turn.payload)) (next turn.fromClient) turn.payload = _ := pushed
  simp only [Sender.segment] at dispatched own
  simp only [dispatched, own]
  refine ⟨rfl, fun fromClient => ?_⟩
  by_cases same : fromClient = turn.fromClient
  · subst same
    rw [Finmap.lookup_insert, Function.update_self]
    exact .inr rfl
  · have other : (client.side fromClient).flow ≠ (client.side turn.fromClient).flow :=
      fun flow => same ((Sender.flow_side_inj distinct).mp flow)
    rw [Finmap.lookup_insert_of_ne _ other, Function.update_of_ne same]
    exact inStep fromClient

theorem InStep.exists_turn (inStep : InStep client flows next)
    (distinct : client.endpoint ≠ client.reverse.endpoint) {turns : List Turn}
    (long : ∀ turn ∈ turns, 6 ≤ turn.payload.length) {dispatch : Dispatch}
    (membership : dispatch ∈ dispatches flows (client.conversation next turns)) :
    ∃ turn ∈ turns, ∃ seq,
      dispatch = ((client.side turn.fromClient).packet seq turn.payload, turn.payload) := by
  induction turns generalizing flows next with
  | nil => cases membership
  | cons turn turns ih =>
    rw [List.forall_mem_cons] at long
    obtain ⟨same, inStep'⟩ := inStep.dispatchesOf distinct long.1
    rw [Sender.conversation, dispatches, List.mem_append] at membership
    rcases membership with now | later
    · rw [same] at now
      exact ⟨turn, List.mem_cons_self, next turn.fromClient, by simpa using now⟩
    · obtain ⟨other, among, seq, found⟩ := ih inStep' long.2 later
      exact ⟨other, List.mem_cons_of_mem _ among, seq, found⟩

theorem exists_packet_of_turn (client : Sender) (next : Bool → UInt32) {turns : List Turn}
    {turn : Turn} (among : turn ∈ turns) :
    ∃ seq, some ((client.side turn.fromClient).packet seq turn.payload) ∈
      client.conversation next turns := by
  induction turns generalizing next with
  | nil => cases among
  | cons first turns ih =>
    rw [Sender.conversation]
    rcases List.mem_cons.mp among with rfl | later
    · exact ⟨_, List.mem_cons_self⟩
    · obtain ⟨seq, found⟩ := ih _ later
      exact ⟨seq, List.mem_cons_of_mem _ found⟩

end InStep

/-! ## A conversation among other packets -/

/-- The packets of the connection are those of one conversation. -/
structure Conversed (capture : List (Option SlicedPacket)) (client : Sender)
    (turns : List Turn) : Prop where
  packets : ∃ next, (capture.filter fun sliced =>
    connectionOf sliced = some client.connection) = client.conversation next turns
  long : ∀ turn ∈ turns, 6 ≤ turn.payload.length
  distinct : client.endpoint ≠ client.reverse.endpoint

structure Overheard (row : List Dispatch) (client : Sender) (turns : List Turn) : Prop where
  only : ∀ dispatch ∈ row, ∀ source destination, dispatch.Sent source destination →
    s(source, destination) = client.connection →
      ∃ turn ∈ turns, (client.side turn.fromClient).endpoint = source ∧ dispatch.2 = turn.payload
  every : ∀ turn ∈ turns, ∃ dispatch ∈ row,
    dispatch.Sent (client.side turn.fromClient).endpoint
      (client.side !turn.fromClient).endpoint ∧ dispatch.2 = turn.payload

theorem overheard_of_first {client : Sender} {turns : List Turn}
    (long : ∀ turn ∈ turns, 6 ≤ turn.payload.length)
    (distinct : client.endpoint ≠ client.reverse.endpoint) (next : Bool → UInt32)
    {others : List (Option SlicedPacket)}
    (elsewhere : ∀ sliced ∈ others, connectionOf sliced ≠ some client.connection) :
    Overheard (trace (client.conversation next turns ++ others)) client turns where
  only dispatch membership source destination sent here := by
    rw [trace, dispatches_append, List.mem_append] at membership
    rcases membership with spoken | other
    · obtain ⟨turn, among, seq, rfl⟩ :=
        (inStep_empty client next).exists_turn distinct long spoken
      have own := (client.side turn.fromClient).sent seq (long turn among)
      exact ⟨turn, among, (own.unique sent).1, rfl⟩
    · have on := connectionOf_of_mem_dispatches other sent
      exact absurd (on.trans (congrArg some here)) (elsewhere _ (mem_dispatches other).1)
  every turn among := by
    obtain ⟨seq, found⟩ := exists_packet_of_turn client next among
    have sent := (client.side turn.fromClient).sent seq (long turn among)
    rw [Sender.side_endpoint_reverse] at sent
    exact ⟨_, Sender.mem_dispatches (long turn among) (List.mem_append_left _ found) ∅, sent, rfl⟩

/-- A capture may as well have begun with the conversation. -/
theorem Conversed.exists_overheard {capture : List (Option SlicedPacket)} {client : Sender}
    {turns : List Turn} (conversed : Conversed capture client turns) :
    ∃ sorted, runCapture sorted = runCapture capture ∧
      (∀ sliced, sliced ∈ sorted ↔ sliced ∈ capture) ∧ Overheard (trace sorted) client turns := by
  obtain ⟨⟨next, packets⟩, long, distinct⟩ := conversed
  have partition := sameDeliveries_partition connectionOf capture client.connection
  refine ⟨_, (run_captureStep_of_sameDeliveries partition .empty).symm, ?_, ?_⟩
  · intro sliced
    rw [List.mem_append, List.mem_filter, List.mem_filter]
    by_cases here : connectionOf sliced = some client.connection <;> simp [here]
  · rw [packets]
    exact overheard_of_first long distinct next fun sliced other => by
      simpa using (List.mem_filter.mp other).2

end PqcUtils.Dump

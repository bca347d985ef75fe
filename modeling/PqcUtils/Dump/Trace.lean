import PqcUtils.Dump.Recording
import PqcUtils.Dump.Ssh.Hosts

/-!
# A capture as a row of dispatches

A packet is dispatched with its own payload and with the buffer that is joined
for it. Which payloads these are depends on the packets alone, so a capture is a
row of dispatches, and its two stores are what a run of the recorders over this
row leaves behind.
-/

namespace PqcUtils.Dump

open Net

/-- A packet and a payload it is dispatched with. -/
abbrev Dispatch := SlicedPacket × Bytes

def dispatchesOf (flows : TcpReassembler) (sliced : Option SlicedPacket) :
    List Dispatch × TcpReassembler :=
  match sliced with
  | none => ([], flows)
  | some packet =>
    match packet.addresses, packet.tcp with
    | some (source, destination), some tcp =>
      if tcp.payload.length < 6 then
        ([], flows)
      else
        let (joined, flows) := TcpReassembler.push flows (tcpFlowKey source destination tcp)
          tcp.sequenceNumber tcp.payload
        ((tcp.payload :: joined.toList).map fun payload => (packet, payload), flows)
    | _, _ => ([], flows)

def dispatches (flows : TcpReassembler) : List (Option SlicedPacket) → List Dispatch
  | [] => []
  | sliced :: capture =>
    (dispatchesOf flows sliced).1 ++ dispatches (dispatchesOf flows sliced).2 capture

def flowsAfter (flows : TcpReassembler) (capture : List (Option SlicedPacket)) : TcpReassembler :=
  capture.foldl (fun flows sliced => (dispatchesOf flows sliced).2) flows

theorem dispatches_append (flows : TcpReassembler) (capture more : List (Option SlicedPacket)) :
    dispatches flows (capture ++ more) =
      dispatches flows capture ++ dispatches (flowsAfter flows capture) more := by
  induction capture generalizing flows with
  | nil => rfl
  | cons sliced capture ih =>
    rw [List.cons_append, dispatches, dispatches, ih, List.append_assoc]
    rfl

def trace (capture : List (Option SlicedPacket)) : List Dispatch := dispatches ∅ capture

/-- One dispatch to the TLS recorder, or to none. -/
def tlsStep (store : TlsStore) (dispatch : Dispatch) : Option TlsStore :=
  match dispatch.1.tcp with
  | none => some store
  | some tcp =>
    if isTlsHandshake dispatch.2 then processSslHello dispatch.1 dispatch.2 tcp store
    else some store

def runTls (row : List Dispatch) : Option TlsStore := Runs.run tlsStep .empty row

/-! ## Dispatches of a capture -/

/-- The dispatch comes from a TCP packet of the capture between these endpoints. -/
structure Dispatch.Sent (dispatch : Dispatch) (source destination : Endpoint) : Prop where
  endpoints : dispatch.1.endpoints = some (source, destination)
  long : 6 ≤ dispatch.2.length

theorem dispatchesOf_of_carries {packet : SlicedPacket} {source destination : IpAddr}
    {tcp : TcpSlice} (carries : packet.Carries source destination tcp) (flows : TcpReassembler) :
    dispatchesOf flows (some packet) =
      let pushed := flows.push (tcpFlowKey source destination tcp) tcp.sequenceNumber tcp.payload
      ((tcp.payload :: pushed.1.toList).map fun payload => (packet, payload), pushed.2) := by
  have long : ¬tcp.payload.length < 6 := Nat.not_lt.mpr carries.long
  simp only [dispatchesOf, carries.addresses, carries.tcp, if_neg long]

theorem dispatchesOf_of_not_carries {sliced : Option SlicedPacket}
    (skipped : ∀ packet source destination tcp, sliced = some packet →
      ¬packet.Carries source destination tcp) (flows : TcpReassembler) :
    dispatchesOf flows sliced = ([], flows) := by
  unfold dispatchesOf
  split
  · rfl
  · next packet =>
    split
    · next source destination tcp addresses transport =>
      have short : tcp.payload.length < 6 := by
        by_contra long
        exact skipped packet source destination tcp rfl ⟨addresses, transport, by omega⟩
      rw [if_pos short]
    · rfl

theorem SlicedPacket.Carries.endpoints {packet : SlicedPacket} {source destination : IpAddr}
    {tcp : TcpSlice} (carries : packet.Carries source destination tcp) :
    packet.endpoints = some ((source, tcp.sourcePort), (destination, tcp.destinationPort)) := by
  simp [SlicedPacket.endpoints, carries.addresses, carries.tcp]

theorem mem_dispatchesOf {flows : TcpReassembler} {sliced : Option SlicedPacket}
    {dispatch : Dispatch} (membership : dispatch ∈ (dispatchesOf flows sliced).1) :
    sliced = some dispatch.1 ∧ ∃ source destination, dispatch.Sent source destination := by
  rcases carries_or_skipped sliced with ⟨packet, source, destination, tcp, rfl, carries⟩ | skipped
  · rw [dispatchesOf_of_carries carries] at membership
    obtain ⟨payload, among, rfl⟩ := List.mem_map.mp membership
    refine ⟨rfl, _, _, carries.endpoints, ?_⟩
    rcases List.mem_cons.mp among with rfl | joined
    · exact carries.long
    · have grows := TcpReassembler.length_le_of_push (Option.mem_toList.mp joined)
      exact carries.long.trans grows
  · rw [dispatchesOf_of_not_carries skipped] at membership
    simp at membership

theorem mem_dispatches {flows : TcpReassembler} {capture : List (Option SlicedPacket)}
    {dispatch : Dispatch} (membership : dispatch ∈ dispatches flows capture) :
    some dispatch.1 ∈ capture ∧ ∃ source destination, dispatch.Sent source destination := by
  induction capture generalizing flows with
  | nil => simp [dispatches] at membership
  | cons sliced capture ih =>
    rcases List.mem_append.mp membership with now | later
    · obtain ⟨same, sent⟩ := mem_dispatchesOf now
      exact ⟨by simp [same], sent⟩
    · obtain ⟨among, sent⟩ := ih later
      exact ⟨by simp [among], sent⟩

/-! ## The stores of a capture -/

theorem parseSshKexinit_of_other {payload : Bytes} {messageNumber : UInt8}
    (found : payload[5]? = some messageNumber) (other : messageNumber ≠ sshMsgKexinit) :
    parseSshKexinit payload = .err () := by
  have long : 5 < payload.length := (List.getElem?_eq_some_iff.mp found).1
  have read : Bytes.index payload 5 = (.ok messageNumber : Outcome Unit UInt8) := by
    rw [Bytes.index, found]
  rw [parseSshKexinit, Outcome.rejectIf_of_not (by omega), Outcome.ok_bind, read, Outcome.ok_bind,
    Outcome.rejectIf_of other, Outcome.err_bind]

/-- One dispatch steps both recorders. -/
theorem stores_of_processPacketHelper {packet : SlicedPacket} {payload : Bytes} {tcp : TcpSlice}
    (transport : packet.tcp = some tcp) {before after : CaptureState}
    (processed : processPacketHelper packet payload tcp before = some after) :
    tlsStep before.tls (packet, payload) = some after.tls ∧
      sshStep before.ssh (packet, payload) = some after.ssh ∧
      after.reassembler = before.reassembler := by
  simp only [processPacketHelper, Option.bind_eq_bind, Option.bind_eq_some_iff] at processed
  obtain ⟨messageNumber, found, ssh, recordedSsh, tls, recordedTls, same⟩ := processed
  cases same
  refine ⟨?_, ?_, rfl⟩
  · rw [tlsStep, transport]
    exact recordedTls
  · split at recordedSsh
    · exact recordedSsh
    · next other =>
      rw [sshStep, processSsh, parseSshKexinit_of_other found other]
      exact recordedSsh

theorem stores_of_captureStep {before after : CaptureState} {sliced : Option SlicedPacket}
    (stepped : captureStep before sliced = some after) :
    Runs.run tlsStep before.tls (dispatchesOf before.reassembler sliced).1 = some after.tls ∧
      Runs.run sshStep before.ssh (dispatchesOf before.reassembler sliced).1 = some after.ssh ∧
      after.reassembler = (dispatchesOf before.reassembler sliced).2 := by
  rcases carries_or_skipped sliced with ⟨packet, source, destination, tcp, rfl, carries⟩ | skipped
  · rw [captureStep_of_carries carries, Option.bind_eq_some_iff] at stepped
    obtain ⟨next, processed, stepped⟩ := stepped
    obtain ⟨tls, ssh, kept⟩ := stores_of_processPacketHelper carries.tcp processed
    rw [dispatchesOf_of_carries carries]
    simp only [kept] at stepped ⊢
    generalize before.reassembler.push (tcpFlowKey source destination tcp) tcp.sequenceNumber
      tcp.payload = pushed at stepped ⊢
    obtain ⟨joined, flows⟩ := pushed
    cases joined with
    | none =>
      cases stepped
      simp [tls, ssh]
    | some data =>
      obtain ⟨tls', ssh', kept'⟩ := stores_of_processPacketHelper carries.tcp stepped
      simp only at tls' ssh' kept'
      simp [tls, ssh, tls', ssh', kept']
  · rw [captureStep_of_not_carries skipped, Option.some.injEq] at stepped
    rw [dispatchesOf_of_not_carries skipped, ← stepped]
    exact ⟨rfl, rfl, rfl⟩

theorem stores_of_run {capture : List (Option SlicedPacket)} {first last : CaptureState}
    (result : Runs.run captureStep first capture = some last) :
    Runs.run tlsStep first.tls (dispatches first.reassembler capture) = some last.tls ∧
      Runs.run sshStep first.ssh (dispatches first.reassembler capture) = some last.ssh := by
  induction capture generalizing first with
  | nil =>
    cases result
    exact ⟨rfl, rfl⟩
  | cons sliced capture ih =>
    rw [Runs.run_cons, Option.bind_eq_some_iff] at result
    obtain ⟨next, stepped, result⟩ := result
    obtain ⟨tls, ssh, flows⟩ := stores_of_captureStep stepped
    obtain ⟨tls', ssh'⟩ := ih result
    rw [dispatches, Runs.run_append, Runs.run_append, tls, ssh, ← flows]
    exact ⟨tls', ssh'⟩

/-- The stores after a capture are those after a run over its dispatches. -/
theorem stores_of_runCapture {capture : List (Option SlicedPacket)} {state : CaptureState}
    (result : runCapture capture = some state) :
    runTls (trace capture) = some state.tls ∧ runSsh (trace capture) = some state.ssh :=
  stores_of_run result

/-- The invariant of the SSH store holds after every capture that is processed to its end. -/
theorem storeInvariant_of_runCapture {capture : List (Option SlicedPacket)} {state : CaptureState}
    (result : runCapture capture = some state) :
    ∃ inputs, StoreInvariant inputs state.ssh ∧ ∀ input ∈ inputs, some input.1 ∈ capture :=
  ⟨trace capture, storeInvariant_of_run (stores_of_runCapture result).2,
    fun _ membership => (mem_dispatches membership).1⟩

end PqcUtils.Dump

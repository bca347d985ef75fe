import PqcUtils.Dump.Segments
import PqcUtils.Dump.Ssh.Negotiation

/-!
# A payload that is dispatched twice

Once a payload has been recorded, recording it again changes nothing: its session
is there and has what the message adds, and its values are in the sets. So an
expected segment, which is dispatched raw and as the joined buffer, leaves what
one dispatch leaves.
-/

namespace PqcUtils.Dump

open Bytes Net

/-! ## The TLS maps -/

theorem insertAt_of_mem {map : HashMap String (Finset UInt16)} {key : String} {val : UInt16}
    (recorded : val ∈ valuesAt map key) : insertAt map key val = map := by
  obtain ⟨values, found, membership⟩ := exists_lookup_of_mem_valuesAt recorded
  apply insert_lookup
  rw [found, Option.getD_some, Finset.insert_eq_of_mem membership]

theorem insertAllAt_of_mem {map : HashMap String (Finset UInt16)} {key : String}
    {vals : List UInt16} (recorded : ∀ val ∈ vals, val ∈ valuesAt map key) :
    insertAllAt map key vals = map := by
  induction vals with
  | nil => rfl
  | cons val vals ih =>
    obtain ⟨here, later⟩ := List.forall_mem_cons.mp recorded
    have step : insertAllAt map key (val :: vals) =
        insertAllAt (insertAt map key val) key vals := rfl
    rw [step, insertAt_of_mem here, ih later]

theorem insertAllAt_twice (map : HashMap String (Finset UInt16)) (key : String)
    (vals : List UInt16) :
    insertAllAt (insertAllAt map key vals) key vals = insertAllAt map key vals := by
  apply insertAllAt_of_mem
  intro val membership
  exact mem_valuesAt_insertAllAt.mpr (.inr ⟨rfl, membership⟩)

theorem insertAt_twice (map : HashMap String (Finset UInt16)) (key : String) (val : UInt16) :
    insertAt (insertAt map key val) key val = insertAt map key val :=
  insertAt_of_mem (mem_valuesAt_insertAt.mpr (.inr ⟨rfl, rfl⟩))

theorem processSslHello_twice {packet : SlicedPacket} {payload : Bytes} {tcp : TcpSlice}
    {store after : TlsStore} (once : processSslHello packet payload tcp store = some after) :
    processSslHello packet payload tcp after = some after := by
  unfold processSslHello at once ⊢
  cases found : payload[5]? with
  | none => simp [found] at once
  | some handshakeType =>
    simp only [found, Option.bind_eq_bind, Option.bind_some] at once ⊢
    by_cases client : handshakeType = 0x01
    · rw [if_pos client] at once ⊢
      cases parsed : parseSslV3ClientHello payload with
      | panic => simp [parsed] at once
      | err error => rfl
      | ok result =>
        simp only [parsed, Option.some.injEq] at once
        simp only [← once, insertAllAt_twice]
    rw [if_neg client] at once ⊢
    by_cases server : handshakeType = 0x02
    · rw [if_pos server] at once ⊢
      cases parsed : parseServerHelloV3 payload with
      | panic => simp [parsed] at once
      | err error => rfl
      | ok result =>
        cases session : packet.tlsSessionKey tcp with
        | none => simp [parsed, session] at once
        | some sessionKey =>
          simp only [parsed, session, Option.bind_some, Option.some.injEq] at once
          simp only [← once, Option.bind_some, insertAllAt_twice, insertAt_twice,
            insert_lookup (Finmap.lookup_insert _)]
    · rw [if_neg server]

/-! ## The SSH store -/

theorem recordKex_twice {store : SshStore} (sound : store.Sound) (srcIp : String)
    (flow : FlowKey) (kex : KexInit) :
    recordKex (recordKex store srcIp flow kex) srcIp flow kex = recordKex store srcIp flow kex := by
  rcases recordKex_cases sound srcIp flow kex with
    ⟨-, -, same⟩ | ⟨absent, absentReverse, opened⟩ |
    ⟨session, absent, found, unanswered, answered⟩
  · rw [same, same]
  · rw [opened]
    exact recordKex_repeat (Finmap.lookup_insert _) (openedBy_sound kex) srcIp kex
  · have distinct : flow ≠ flow.reverse := by
      intro same
      rw [← same] at found
      exact absent (Finmap.mem_of_lookup_eq_some found)
    rw [answered]
    refine recordKex_answered ?_ (Finmap.lookup_insert _) ((sound _ _ found).answeredBy kex) ?_
      srcIp kex
    · rw [Finmap.mem_insert]
      rintro (same | present)
      · exact distinct same
      · exact absent present
    · simp [SshSession.answeredBy]

theorem processSsh_twice {packet : SlicedPacket} {payload : Bytes} {store after : SshStore}
    (sound : store.Sound) (once : processSsh packet payload store = some after) :
    processSsh packet payload after = some after := by
  unfold processSsh at once ⊢
  cases parsed : parseSshKexinit payload with
  | panic => simp [parsed] at once
  | err error => rfl
  | ok kex =>
    cases endpoints : packet.endpoints with
    | none => rfl
    | some ends =>
      simp only [parsed, endpoints, Option.some.injEq] at once
      simp only [← once, recordKex_twice sound]

/-! ## One dispatch -/

theorem processPacketHelper_eq_some_iff {packet : SlicedPacket} {payload : Bytes} {tcp : TcpSlice}
    {state after : CaptureState} :
    processPacketHelper packet payload tcp state = some after ↔
      ∃ messageNumber, payload[5]? = some messageNumber ∧
        (if messageNumber = sshMsgKexinit then processSsh packet payload state.ssh
          else some state.ssh) = some after.ssh ∧
        (if isTlsHandshake payload then processSslHello packet payload tcp state.tls
          else some state.tls) = some after.tls ∧
        after.reassembler = state.reassembler := by
  simp only [processPacketHelper, Option.bind_eq_bind, Option.bind_eq_some_iff, Option.some.injEq]
  constructor
  · rintro ⟨messageNumber, found, ssh, recorded, tls, taken, rfl⟩
    exact ⟨messageNumber, found, recorded, taken, rfl⟩
  · rintro ⟨messageNumber, found, recorded, taken, kept⟩
    refine ⟨messageNumber, found, _, recorded, _, taken, ?_⟩
    cases after
    simp only at kept
    rw [kept]

theorem processPacketHelper_twice {packet : SlicedPacket} {payload : Bytes} {tcp : TcpSlice}
    {state after : CaptureState} (sound : state.ssh.Sound)
    (once : processPacketHelper packet payload tcp state = some after) :
    processPacketHelper packet payload tcp after = some after := by
  obtain ⟨messageNumber, found, recorded, taken, -⟩ := processPacketHelper_eq_some_iff.mp once
  refine processPacketHelper_eq_some_iff.mpr ⟨messageNumber, found, ?_, ?_, rfl⟩
  · split at recorded
    · next message => rw [if_pos message, processSsh_twice sound recorded]
    · next other => rw [if_neg other]
  · split at taken
    · next handshake => rw [if_pos handshake, processSslHello_twice taken]
    · next other => rw [if_neg other]

/-! ## Reachable states -/

/-- The states that dispatches reach from empty maps, whatever the reassembler does between. -/
inductive Reachable : CaptureState → Prop where
  | empty : Reachable .empty
  | push {state : CaptureState} (reassembler : TcpReassembler) :
      Reachable state → Reachable { state with reassembler }
  | dispatch {state after : CaptureState} {packet : SlicedPacket} {payload : Bytes}
      {tcp : TcpSlice} :
      Reachable state → processPacketHelper packet payload tcp state = some after → Reachable after

theorem Reachable.sound {state : CaptureState} (reachable : Reachable state) : state.ssh.Sound := by
  induction reachable with
  | empty => exact SshStore.sound_empty
  | push reassembler reachable sound => exact sound
  | @dispatch state after packet payload tcp reachable dispatched sound =>
    obtain ⟨messageNumber, -, recorded, -⟩ := processPacketHelper_eq_some_iff.mp dispatched
    split at recorded
    · have stepped : sshStep state.ssh (packet, payload) = some after.ssh := recorded
      exact (sshStep_keeps sound stepped).1
    · rw [Option.some.injEq] at recorded
      rwa [← recorded]

theorem reachable_of_run {capture : List (Option SlicedPacket)} {state : CaptureState}
    (result : runCapture capture = some state) : Reachable state := by
  refine Runs.invariant_of_run Reachable ?_ .empty result
  intro before sliced after reachable stepped
  rcases carries_or_skipped sliced with ⟨packet, source, destination, tcp, rfl, carries⟩ | skipped
  · rw [captureStep_of_carries carries, Option.bind_eq_some_iff] at stepped
    obtain ⟨between, first, stepped⟩ := stepped
    have pushed := (reachable.dispatch first).push
    dsimp only at stepped
    split at stepped
    · exact (pushed _).dispatch stepped
    · cases stepped
      exact pushed _
  · rw [captureStep_of_not_carries skipped, Option.some.injEq] at stepped
    rwa [← stepped]

/-- In every reachable state a second dispatch of the same payload changes nothing. -/
theorem dispatched_twice {state : CaptureState} (reachable : Reachable state)
    (packet : SlicedPacket) (payload : Bytes) (tcp : TcpSlice)
    (completes : processPacketHelper packet payload tcp state ≠ none) :
    (processPacketHelper packet payload tcp state).bind
        (processPacketHelper packet payload tcp) =
      processPacketHelper packet payload tcp state := by
  obtain ⟨after, once⟩ := Option.ne_none_iff_exists'.mp completes
  rw [once, Option.bind_some, processPacketHelper_twice reachable.sound once]

/-- The client's message opens no session, since the server's has opened one. -/
theorem clientMessage_dispatched_twice :
    ∃ state, runCapture [some serverMessage.1] = some state ∧
      flowOf (localhost 22) (localhost 50000) ∈ state.ssh.sessions ∧
      (processPacketHelper clientMessage.1 clientMessage.2 ⟨50000, 22, 0, []⟩ state).bind
          (processPacketHelper clientMessage.1 clientMessage.2 ⟨50000, 22, 0, []⟩) =
        processPacketHelper clientMessage.1 clientMessage.2 ⟨50000, 22, 0, []⟩ state := by
  have opened : (runCapture [some serverMessage.1]).map (fun state =>
      decide (flowOf (localhost 22) (localhost 50000) ∈ state.ssh.sessions)) = some true := by
    decide +kernel
  obtain ⟨state, result, session⟩ := Option.map_eq_some_iff.mp opened
  refine ⟨state, result, of_decide_eq_true session,
    dispatched_twice (reachable_of_run result) _ _ _ ?_⟩
  obtain ⟨ssh, recorded⟩ := processSsh_isSome clientMessage.1 clientMessage.2 state.ssh
  have dispatched : processPacketHelper clientMessage.1 clientMessage.2 ⟨50000, 22, 0, []⟩ state =
      some { state with ssh } :=
    processPacketHelper_eq_some_iff.mpr ⟨20, by decide, recorded, rfl, rfl⟩
  simp [dispatched]

end PqcUtils.Dump

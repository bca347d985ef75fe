import PqcUtils.Dump.Sessions
import PqcUtils.Dump.Ssh.Negotiation
import PqcUtils.Library.Commuting
import Mathlib.Data.Sym.Sym2

/-!
# Connections in a capture

Packets of different connections have no part in each other: they use different
flows, different sessions, and add to sets what they add. So a capture may interleave
its connections in any way, and what is recorded of it stays the same.
-/

namespace PqcUtils.Dump

open Net Runs

/-! ## One step as three -/

theorem exists_sshStep (store : SshStore) (dispatch : Dispatch) :
    ∃ after, sshStep store dispatch = some after :=
  processSsh_isSome dispatch.1 dispatch.2 store

theorem exists_run_sshStep (row : List Dispatch) (store : SshStore) :
    ∃ after, Runs.run sshStep store row = some after :=
  Runs.exists_run_of_mem (fun dispatch _ before => exists_sshStep before dispatch) store

/-- One dispatch steps the recorders apart from each other. -/
theorem processPacketHelper_eq {packet : SlicedPacket} {payload : Bytes} {tcp : TcpSlice}
    (transport : packet.tcp = some tcp) (long : 6 ≤ payload.length) (state : CaptureState) :
    processPacketHelper packet payload tcp state =
      (tlsStep state.tls (packet, payload)).bind fun tls =>
        (sshStep state.ssh (packet, payload)).map fun ssh => { state with ssh, tls } := by
  cases processed : processPacketHelper packet payload tcp state with
  | some after =>
    obtain ⟨tls, ssh, kept⟩ := stores_of_processPacketHelper transport processed
    rw [tls, ssh, ← kept]
    rfl
  | none =>
    obtain ⟨messageNumber, found⟩ : ∃ messageNumber, payload[5]? = some messageNumber :=
      ⟨payload.get ⟨5, long⟩, List.getElem?_eq_getElem long⟩
    obtain ⟨ssh, recorded⟩ : ∃ ssh, (if messageNumber = sshMsgKexinit then
        processSsh packet payload state.ssh else some state.ssh) = some ssh := by
      split
      · exact processSsh_isSome packet payload state.ssh
      · exact ⟨state.ssh, rfl⟩
    have panics : tlsStep state.tls (packet, payload) = none := by
      simp only [processPacketHelper, found, recorded, Option.bind_eq_bind, Option.bind_some,
        Option.bind_eq_none_iff, reduceCtorEq, imp_false] at processed
      rw [tlsStep, transport]
      exact Option.eq_none_iff_forall_ne_some.mpr processed
    rw [panics, Option.bind_none]

theorem captureStep_eq (state : CaptureState) (sliced : Option SlicedPacket) :
    captureStep state sliced =
      (Runs.run tlsStep state.tls (dispatchesOf state.reassembler sliced).1).bind fun tls =>
        (Runs.run sshStep state.ssh (dispatchesOf state.reassembler sliced).1).map fun ssh =>
          ⟨(dispatchesOf state.reassembler sliced).2, ssh, tls⟩ := by
  rcases carries_or_skipped sliced with ⟨packet, source, destination, tcp, rfl, carries⟩ | skipped
  · have long : ∀ payload ∈ dispatched state source destination tcp, 6 ≤ payload.length :=
      length_of_dispatched carries.long
    rw [captureStep_of_carries carries, dispatchesOf_of_carries carries,
      processPacketHelper_eq carries.tcp carries.long]
    rw [dispatched] at long
    obtain ⟨ssh, recorded⟩ := exists_sshStep state.ssh (packet, tcp.payload)
    cases told : tlsStep state.tls (packet, tcp.payload) with
    | none => simp [told]
    | some tls =>
      simp only [recorded, Option.bind_some, Option.map_some]
      generalize state.reassembler.push (tcpFlowKey source destination tcp) tcp.sequenceNumber
        tcp.payload = pushed at long ⊢
      obtain ⟨joined, flows⟩ := pushed
      cases joined with
      | none => simp [told, recorded]
      | some data =>
        simp only at long ⊢
        rw [processPacketHelper_eq carries.tcp (long data (by simp))]
        simp [told, recorded]
  · rw [captureStep_of_not_carries skipped, dispatchesOf_of_not_carries skipped]
    rfl

/-! ## Recorders -/

theorem insertAt_comm (map : HashMap String (Finset UInt16)) (key key' : String)
    (val val' : UInt16) :
    insertAt (insertAt map key val) key' val' = insertAt (insertAt map key' val') key val :=
  HashMap.update_comm map ∅ fun _ values => Finset.insert_comm val val' values

theorem insertAllAt_insertAt (map : HashMap String (Finset UInt16)) (key key' : String)
    (val : UInt16) (vals : List UInt16) :
    insertAllAt (insertAt map key val) key' vals =
      insertAt (insertAllAt map key' vals) key val := by
  induction vals generalizing map with
  | nil => rfl
  | cons first vals ih =>
    have step (map : HashMap String (Finset UInt16)) :
        insertAllAt map key' (first :: vals) = insertAllAt (insertAt map key' first) key' vals :=
      rfl
    rw [step, step, insertAt_comm, ih]

theorem insertAllAt_comm (map : HashMap String (Finset UInt16)) (key key' : String)
    (vals vals' : List UInt16) :
    insertAllAt (insertAllAt map key vals) key' vals' =
      insertAllAt (insertAllAt map key' vals') key vals := by
  induction vals generalizing map with
  | nil => rfl
  | cons first vals ih =>
    have step (map : HashMap String (Finset UInt16)) :
        insertAllAt map key (first :: vals) = insertAllAt (insertAt map key first) key vals := rfl
    rw [step, step, ih, insertAllAt_insertAt]

def sessionsAfter (source destination : Endpoint) (payload : Bytes)
    (sessions : HashMap TlsSessionKey UInt16) : HashMap TlsSessionKey UInt16 :=
  match serverGroup payload with
  | some group => Finmap.insert (sessionKey source destination) group sessions
  | none => sessions

theorem tlsStep_eq {dispatch : Dispatch} {source destination : Endpoint}
    (sent : dispatch.Sent source destination) (store : TlsStore) :
    tlsStep store dispatch = (payloadConfig dispatch.2).map fun config =>
      ⟨insertAllAt store.tlsCiphers (tlsKey source.1 source.2) config.ciphers,
        insertAllAt store.keyshareGroups (tlsKey source.1 source.2) config.keyshareGroups,
        sessionsAfter source destination dispatch.2 store.tlsSessions⟩ := by
  cases stepped : tlsStep store dispatch with
  | some after =>
    obtain ⟨sessions, config, configEq, taken⟩ := tlsStep_effect sent stepped
    have sessionsEq : after.tlsSessions =
        sessionsAfter source destination dispatch.2 store.tlsSessions := sessions
    rw [configEq, Option.map_some, ← taken.ciphers, ← taken.groups, ← sessionsEq]
  | none =>
    obtain ⟨packet, payload⟩ := dispatch
    obtain ⟨tcp, transport, addresses, port, -⟩ := exists_carried sent.endpoints
    simp only [tlsStep, transport] at stepped
    split at stepped
    · next handshake =>
      have followed := processSslHello_follows addresses handshake tcp store
      rw [stepped] at followed
      rw [followed.eq_none, Option.map_none]
    · cases stepped

theorem commutes_tlsStep {first second : Dispatch} {source destination source' destination' :
    Endpoint} (sent : first.Sent source destination) (sent' : second.Sent source' destination')
    (apart : s(source, destination) ≠ s(source', destination')) :
    Commutes tlsStep first second := by
  intro store
  have sessions : sessionKey source destination ≠ sessionKey source' destination' := by
    rw [Ne, sessionKey_inj]
    rintro ⟨rfl, rfl⟩
    exact apart rfl
  simp only [tlsStep_eq sent, tlsStep_eq sent']
  cases payloadConfig first.2 <;> cases payloadConfig second.2 <;>
    simp only [Option.map_none, Option.map_some, Option.bind_none, Option.bind_some]
  congr 2
  · exact insertAllAt_comm ..
  · exact insertAllAt_comm ..
  · unfold sessionsAfter
    cases serverGroup first.2 <;> cases serverGroup second.2 <;>
      simp only [HashMap.insert_comm _ sessions]

theorem foldl_insert_comm (names names' : List String) (supported : Finset String) :
    names.foldl (fun supported alg => insert alg supported)
        (names'.foldl (fun supported alg => insert alg supported) supported) =
      names'.foldl (fun supported alg => insert alg supported)
        (names.foldl (fun supported alg => insert alg supported) supported) := by
  ext alg
  simp only [mem_foldl_insert]
  tauto

theorem updateHostCaps_comm (hostCaps : HashMap String HostCapabilities) (host host' : String)
    (kex kex' : KexInit) :
    updateHostCaps (updateHostCaps hostCaps host kex) host' kex' =
      updateHostCaps (updateHostCaps hostCaps host' kex') host kex := by
  refine HashMap.update_comm hostCaps default fun _ caps => ?_
  rw [HostCapabilities.mk.injEq]
  exact foldl_insert_comm kex.kexAlgorithms kex'.kexAlgorithms caps.supportedKex

def capsAfter (recorded : Bool) (host : String) (kex : KexInit)
    (hostCaps : HashMap String HostCapabilities) : HashMap String HostCapabilities :=
  if recorded then updateHostCaps hostCaps host kex else hostCaps

theorem capsAfter_comm (recorded recorded' : Bool) (host host' : String) (kex kex' : KexInit)
    (hostCaps : HashMap String HostCapabilities) :
    capsAfter recorded' host' kex' (capsAfter recorded host kex hostCaps) =
      capsAfter recorded host kex (capsAfter recorded' host' kex' hostCaps) := by
  cases recorded <;> cases recorded' <;>
    simp [capsAfter, updateHostCaps_comm hostCaps host host' kex kex']

/-- What a message does is told from the sessions of its connection. -/
theorem recordKex_local {store store' : SshStore} {flow : FlowKey}
    (forward : store'.sessions.lookup flow = store.sessions.lookup flow)
    (backward : store'.sessions.lookup flow.reverse = store.sessions.lookup flow.reverse)
    (host : String) (kex : KexInit) :
    ∃ key session recorded, (key = flow ∨ key = flow.reverse) ∧
      recordKex store host flow kex = ⟨Finmap.insert key session store.sessions,
        capsAfter recorded host kex store.hostCaps⟩ ∧
      recordKex store' host flow kex = ⟨Finmap.insert key session store'.sessions,
        capsAfter recorded host kex store'.hostCaps⟩ := by
  have keep (session : SshSession) (isForward : Bool) :
      ∃ (kept : SshSession) (recorded : Bool), ∀ store : SshStore,
        (if isForward ∧ session.clientKexinit.isNone then
          ({ session with clientKexinit := some kex }, updateHostCaps store.hostCaps host kex)
        else if ¬isForward ∧ session.serverKexinit.isNone then
          ({ session with serverKexinit := some kex }, updateHostCaps store.hostCaps host kex)
        else (session, store.hostCaps)) = (kept, capsAfter recorded host kex store.hostCaps) := by
    by_cases client : isForward ∧ session.clientKexinit.isNone
    · exact ⟨_, true, fun store => if_pos client⟩
    · by_cases server : ¬isForward ∧ session.serverKexinit.isNone
      · exact ⟨_, true, fun store => by rw [if_neg client, if_pos server]; rfl⟩
      · exact ⟨_, false, fun store => by rw [if_neg client, if_neg server]; rfl⟩
  simp only [recordKex, forward, backward]
  cases store.sessions.lookup flow with
  | some session =>
    obtain ⟨kept, recorded, effect⟩ := keep session true
    exact ⟨flow, kept.settle, recorded, .inl rfl, by rw [effect], by rw [effect]⟩
  | none =>
    cases store.sessions.lookup flow.reverse with
    | some session =>
      obtain ⟨kept, recorded, effect⟩ := keep session false
      exact ⟨flow.reverse, kept.settle, recorded, .inr rfl, by rw [effect], by rw [effect]⟩
    | none =>
      obtain ⟨kept, recorded, effect⟩ := keep default true
      exact ⟨flow, kept.settle, recorded, .inl rfl, by rw [effect], by rw [effect]⟩

theorem lookup_recordKex_of_ne (store : SshStore) {flow other : FlowKey} (straight : other ≠ flow)
    (crossed : other ≠ flow.reverse) (host : String) (kex : KexInit) :
    (recordKex store host flow kex).sessions.lookup other = store.sessions.lookup other := by
  obtain ⟨key, session, recorded, place, effect, -⟩ :=
    @recordKex_local store store flow rfl rfl host kex
  rw [effect]
  refine Finmap.lookup_insert_of_ne _ ?_
  rcases place with rfl | rfl
  · exact straight
  · exact crossed

theorem recordKex_comm {a b c d : Endpoint} (apart : s(a, b) ≠ s(c, d)) (store : SshStore)
    (host host' : String) (kex kex' : KexInit) :
    recordKex (recordKex store host (flowOf a b) kex) host' (flowOf c d) kex' =
      recordKex (recordKex store host' (flowOf c d) kex') host (flowOf a b) kex := by
  have straight : flowOf a b ≠ flowOf c d := by
    rw [Ne, flowOf_inj]
    rintro ⟨rfl, rfl⟩
    exact apart rfl
  have crossed : flowOf a b ≠ flowOf d c := by
    rw [Ne, flowOf_inj]
    rintro ⟨rfl, rfl⟩
    exact apart Sym2.eq_swap
  have straight' : flowOf b a ≠ flowOf d c := fun same => straight (congrArg FlowKey.reverse same)
  have crossed' : flowOf b a ≠ flowOf c d := fun same => crossed (congrArg FlowKey.reverse same)
  obtain ⟨key, session, recorded, place, effect, again⟩ :=
    recordKex_local (lookup_recordKex_of_ne store straight crossed host' kex')
      (lookup_recordKex_of_ne store crossed' straight' host' kex') host kex
  obtain ⟨key', session', recorded', place', effect', again'⟩ :=
    recordKex_local (lookup_recordKex_of_ne store straight.symm crossed'.symm host kex)
      (lookup_recordKex_of_ne store crossed.symm straight'.symm host kex) host' kex'
  have distinct : key ≠ key' := by
    rintro rfl
    rcases place with rfl | rfl <;> rcases place' with same | same
    · exact straight same
    · exact crossed same
    · exact crossed' same
    · exact straight' same
  rw [again', again, effect, effect', HashMap.insert_comm _ distinct, capsAfter_comm]

theorem sshStep_skips_or_records {dispatch : Dispatch} {source destination : Endpoint}
    (sent : dispatch.Sent source destination) :
    (∀ store, sshStep store dispatch = some store) ∨
      ∃ kex, ∀ store, sshStep store dispatch =
        some (recordKex store source.1.display (flowOf source destination) kex) := by
  by_cases heard : ∃ kex, Accepted dispatch source destination kex
  · obtain ⟨kex, accepted⟩ := heard
    exact .inr ⟨kex, sshStep_of_accepted accepted⟩
  · refine .inl fun store => ?_
    rcases sshStep_cases store dispatch with
      ⟨source', destination', kex, accepted, -⟩ | ⟨-, skipped⟩
    · -- A packet has one pair of endpoints, so the message would be heard.
      have same : some (source', destination') = some (source, destination) :=
        accepted.2.symm.trans sent.endpoints
      cases same
      exact absurd ⟨kex, accepted⟩ heard
    · exact skipped

theorem commutes_sshStep {first second : Dispatch} {source destination source' destination' :
    Endpoint} (sent : first.Sent source destination) (sent' : second.Sent source' destination')
    (apart : s(source, destination) ≠ s(source', destination')) :
    Commutes sshStep first second := by
  intro store
  rcases sshStep_skips_or_records sent with skipped | ⟨kex, recorded⟩
  · cases result : sshStep store second <;> simp [skipped, result]
  · rcases sshStep_skips_or_records sent' with skipped' | ⟨kex', recorded'⟩
    · simp [skipped', recorded]
    · simp [recorded, recorded', recordKex_comm apart]

/-! ## Captures -/

/-- The connection of a packet that is looked at. -/
def connectionOf (sliced : Option SlicedPacket) : Option (Sym2 Endpoint) :=
  match sliced with
  | none => none
  | some packet =>
    match packet.addresses, packet.tcp with
    | some (source, destination), some tcp =>
      if tcp.payload.length < 6 then none
      else some s((source, tcp.sourcePort), (destination, tcp.destinationPort))
    | _, _ => none

theorem exists_carries_of_connectionOf {sliced : Option SlicedPacket} {connection : Sym2 Endpoint}
    (found : connectionOf sliced = some connection) :
    ∃ packet source destination tcp, sliced = some packet ∧
      packet.Carries source destination tcp ∧
      connection = s((source, tcp.sourcePort), (destination, tcp.destinationPort)) := by
  unfold connectionOf at found
  split at found
  · cases found
  · next packet =>
    split at found
    · next source destination tcp addresses transport =>
      split at found
      · cases found
      · next long =>
        cases found
        exact ⟨packet, source, destination, tcp, rfl, ⟨addresses, transport, by omega⟩, rfl⟩
    · cases found

theorem captureStep_of_connectionOf_none {sliced : Option SlicedPacket}
    (none : connectionOf sliced = none) (state : CaptureState) :
    captureStep state sliced = some state := by
  refine captureStep_of_not_carries (fun packet source destination tcp same carries => ?_) state
  have long : ¬tcp.payload.length < 6 := Nat.not_lt.mpr carries.long
  subst same
  simp [connectionOf, carries.addresses, carries.tcp, long] at none

theorem push_push_of_ne (flows : TcpReassembler) {key key' : TcpFlowKey} (distinct : key ≠ key')
    (seq seq' : UInt32) (payload payload' : Bytes) :
    ((flows.push key seq payload).2.push key' seq' payload').1 =
        (flows.push key' seq' payload').1 ∧
      ((flows.push key seq payload).2.push key' seq' payload').2 =
        ((flows.push key' seq' payload').2.push key seq payload).2 := by
  simp only [TcpReassembler.push, Finmap.lookup_insert_of_ne _ distinct,
    Finmap.lookup_insert_of_ne _ distinct.symm, true_and]
  exact HashMap.insert_comm _ distinct _ _

theorem connection_eq_of_flowKey {source destination source' destination' : IpAddr}
    {tcp tcp' : TcpSlice}
    (same : tcpFlowKey source destination tcp = tcpFlowKey source' destination' tcp') :
    (source, tcp.sourcePort) = (source', tcp'.sourcePort) ∧
      (destination, tcp.destinationPort) = (destination', tcp'.destinationPort) := by
  simp only [tcpFlowKey, TcpFlowKey.mk.injEq, display_injective.eq_iff] at same
  simp [same]

theorem captureStep_bind (state : CaptureState) (first second : Option SlicedPacket) :
    ((captureStep state first).bind fun next => captureStep next second) =
      let opened := dispatchesOf state.reassembler first
      let closed := dispatchesOf opened.2 second
      (Runs.run tlsStep state.tls (opened.1 ++ closed.1)).bind fun tls =>
        (Runs.run sshStep state.ssh (opened.1 ++ closed.1)).map fun ssh =>
          ⟨closed.2, ssh, tls⟩ := by
  simp only [captureStep_eq, Runs.run_append]
  obtain ⟨ssh, recorded⟩ :=
    exists_run_sshStep (dispatchesOf state.reassembler first).1 state.ssh
  cases Runs.run tlsStep state.tls (dispatchesOf state.reassembler first).1 <;> simp [recorded]

theorem commutes_captureStep {first second : Option SlicedPacket}
    {connection connection' : Sym2 Endpoint} (found : connectionOf first = some connection)
    (found' : connectionOf second = some connection') (apart : connection ≠ connection') :
    Commutes captureStep first second := by
  intro state
  obtain ⟨packet, source, destination, tcp, rfl, carries, rfl⟩ :=
    exists_carries_of_connectionOf found
  obtain ⟨packet', source', destination', tcp', rfl, carries', rfl⟩ :=
    exists_carries_of_connectionOf found'
  have flowsApart : tcpFlowKey source destination tcp ≠ tcpFlowKey source' destination' tcp' := by
    intro same
    obtain ⟨sources, destinations⟩ := connection_eq_of_flowKey same
    exact apart (by rw [sources, destinations])
  obtain ⟨later, flows⟩ := push_push_of_ne state.reassembler flowsApart tcp.sequenceNumber
    tcp'.sequenceNumber tcp.payload tcp'.payload
  have earlier := (push_push_of_ne state.reassembler flowsApart.symm tcp'.sequenceNumber
    tcp.sequenceNumber tcp'.payload tcp.payload).1
  have sent {packet : SlicedPacket} {source destination : IpAddr} {tcp : TcpSlice}
      (carries : packet.Carries source destination tcp) :
      ∀ dispatch ∈ (dispatchesOf state.reassembler (some packet)).1,
        dispatch.Sent (source, tcp.sourcePort) (destination, tcp.destinationPort) := by
    intro dispatch membership
    obtain ⟨same, a, b, sent⟩ := mem_dispatchesOf membership
    have endpoints := carries.endpoints
    rw [Option.some.inj same, sent.endpoints, Option.some.injEq, Prod.mk.injEq] at endpoints
    rwa [← endpoints.1, ← endpoints.2]
  have tls := Runs.run_append_comm (fun dispatch membership other membership' =>
    commutes_tlsStep (sent carries dispatch membership)
      (sent carries' other membership') apart) state.tls
  have ssh := Runs.run_append_comm (fun dispatch membership other membership' =>
    commutes_sshStep (sent carries dispatch membership)
      (sent carries' other membership') apart) state.ssh
  simp only [dispatchesOf_of_carries carries, dispatchesOf_of_carries carries'] at tls ssh
  rw [captureStep_bind, captureStep_bind]
  simp only [dispatchesOf_of_carries carries, dispatchesOf_of_carries carries', later, earlier,
    flows, tls, ssh]

theorem run_captureStep_of_sameDeliveries {capture capture' : List (Option SlicedPacket)}
    (same : SameDeliveries connectionOf capture capture') (state : CaptureState) :
    Runs.run captureStep state capture = Runs.run captureStep state capture' :=
  run_of_sameDeliveries (fun _ none => captureStep_of_connectionOf_none none)
    (fun _ _ _ _ found found' apart => commutes_captureStep found found' apart) same state

/-- What is recorded of a capture is determined by the packets of each connection in their order,
however the connections are interleaved. -/
theorem runCapture_of_sameDeliveries {capture capture' : List (Option SlicedPacket)}
    (same : SameDeliveries connectionOf capture capture') :
    runCapture capture = runCapture capture' :=
  run_captureStep_of_sameDeliveries same .empty

theorem runCapture_swapped :
    runCapture [some (localClient.packet 1 (Wire.smallHello.record 1)),
        some (fromServer.packet 1 (Wire.answer.record 3))] =
      runCapture [some (fromServer.packet 1 (Wire.answer.record 3)),
        some (localClient.packet 1 (Wire.smallHello.record 1))] := by
  apply runCapture_of_sameDeliveries
  intro origin
  have first : connectionOf (some (localClient.packet 1 (Wire.smallHello.record 1))) =
      some s((localClient.source, 50000), (localClient.source, 443)) := by decide
  have second : connectionOf (some (fromServer.packet 1 (Wire.answer.record 3))) =
      some s(tlsServer, tlsClient) := by decide
  have apart : s((localClient.source, 50000), (localClient.source, 443)) ≠
      s(tlsServer, tlsClient) := by decide
  by_cases here : s((localClient.source, 50000), (localClient.source, 443)) = origin
  · have elsewhere : s(tlsServer, tlsClient) ≠ origin := fun there => apart (here.trans there.symm)
    simp [first, second, here, elsewhere]
  · simp [List.filter_cons, first, second, here]

end PqcUtils.Dump

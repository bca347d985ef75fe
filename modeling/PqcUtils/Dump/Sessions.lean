import PqcUtils.Dump.Segments
import PqcUtils.Dump.Tls.Reading
import PqcUtils.Dump.Trace
import PqcUtils.Wire.ServerHello

/-!
# The sessions of a capture

Every payload that reads as a server hello sets the group of its connection, one
without a key share to zero. So a group is kept exactly as long as every later
server hello of the connection chooses it again.
-/

namespace PqcUtils.Dump

open Net Wire

/-! ## What one dispatch does -/

/-- The payload is dispatched as a server hello and reaches the length of its extensions. -/
structure IsServerHello (payload : Bytes) : Prop where
  handshake : isTlsHandshake payload
  server : payload[5]? = some 0x02
  reaches : ∃ suite length rest, ServerHelloUpTo payload suite length rest

/-- The group a payload sets for its connection, if it sets one. -/
def serverGroup (payload : Bytes) : Option UInt16 :=
  if isTlsHandshake payload ∧ payload[5]? = some 0x02 then
    match parseServerHelloV3 payload with
    | .ok result => some result.keyshare
    | _ => none
  else none

theorem serverGroup_eq_some_iff {payload : Bytes} {group : UInt16} :
    serverGroup payload = some group ↔ isTlsHandshake payload ∧ payload[5]? = some 0x02 ∧
      ∃ result, parseServerHelloV3 payload = .ok result ∧ result.keyshare = group := by
  unfold serverGroup
  split
  · next server =>
    cases parsed : parseServerHelloV3 payload <;> simp [server]
  · next other =>
    simp only [reduceCtorEq, false_iff]
    rintro ⟨handshake, server, -⟩
    exact other ⟨handshake, server⟩

/-- The group is chosen by the payload, or it is zero because the payload chooses none. -/
theorem serverGroup_cases {payload : Bytes} {group : UInt16}
    (set : serverGroup payload = some group) : IsServerHello payload ∧
      (Chooses payload group ∨ (∀ other, ¬Chooses payload other) ∧ group = 0) := by
  obtain ⟨handshake, server, result, parsed, rfl⟩ := serverGroup_eq_some_iff.mp set
  refine ⟨⟨handshake, server, (exists_serverHelloUpTo parsed).2⟩, ?_⟩
  rcases keyshare_of_parsed parsed with ⟨group, chooses, same⟩ | ⟨none, zero⟩
  · exact .inl (same ▸ chooses)
  · exact .inr ⟨none, zero⟩

theorem IsServerHello.exists_serverGroup {payload : Bytes} (hello : IsServerHello payload)
    (safe : payloadConfig payload ≠ none) : ∃ group, serverGroup payload = some group := by
  obtain ⟨suite, length, rest, upTo⟩ := hello.reaches
  cases parsed : parseServerHelloV3 payload with
  | ok result =>
    exact ⟨_, serverGroup_eq_some_iff.mpr ⟨hello.handshake, hello.server, result, parsed, rfl⟩⟩
  | err error => exact absurd parsed (parseServerHelloV3_ne_err upTo hello.server error)
  | panic =>
    have client : ¬payload[5]? = some 0x01 := by
      rw [hello.server]
      decide
    exact absurd (by rw [payloadConfig, if_pos hello.handshake, if_neg client,
      if_pos hello.server, parsed]) safe

def sessionKey (server client : Endpoint) : TlsSessionKey :=
  ⟨client.1, client.2, server.1, server.2⟩

theorem sessionKey_inj {server client server' client' : Endpoint} :
    sessionKey server client = sessionKey server' client' ↔
      server = server' ∧ client = client' := by
  simp only [sessionKey, TlsSessionKey.mk.injEq, Prod.ext_iff]
  tauto

/-- What a dispatch does to the three maps. -/
structure TlsEffect (source destination : Endpoint) (payload : Bytes) (before after : TlsStore) :
    Prop where
  sessions : after.tlsSessions = (match serverGroup payload with
    | some group => Finmap.insert (sessionKey source destination) group before.tlsSessions
    | none => before.tlsSessions)
  maps : ∃ config, payloadConfig payload = some config ∧
    before.Takes (tlsKey source.1 source.2) config after

theorem exists_carried {packet : SlicedPacket} {source destination : Endpoint}
    (endpoints : packet.endpoints = some (source, destination)) :
    ∃ tcp, packet.tcp = some tcp ∧ packet.addresses = some (source.1, destination.1) ∧
      source.2 = tcp.sourcePort ∧ destination.2 = tcp.destinationPort := by
  unfold SlicedPacket.endpoints at endpoints
  split at endpoints
  · next tcp _ _ transport addresses =>
    cases endpoints
    exact ⟨tcp, transport, addresses, rfl, rfl⟩
  · cases endpoints

theorem sessions_of_processSslHello {packet : SlicedPacket} {source destination : IpAddr}
    (ip : packet.addresses = some (source, destination)) {payload : Bytes}
    (handshake : isTlsHandshake payload) {tcp : TcpSlice} {before after : TlsStore}
    (processed : processSslHello packet payload tcp before = some after) :
    after.tlsSessions = (match serverGroup payload with
      | some group => Finmap.insert
          (sessionKey (source, tcp.sourcePort) (destination, tcp.destinationPort)) group
          before.tlsSessions
      | none => before.tlsSessions) := by
  have session : packet.tlsSessionKey tcp =
      some (sessionKey (source, tcp.sourcePort) (destination, tcp.destinationPort)) := by
    simp [SlicedPacket.tlsSessionKey, ip, sessionKey]
  simp only [processSslHello, Option.bind_eq_bind, Option.bind_eq_some_iff] at processed
  obtain ⟨handshakeType, found, processed⟩ := processed
  rw [serverGroup, found]
  split at processed
  · next client =>
    rw [if_neg (by simp [client])]
    split at processed
    · cases processed
    · cases processed
      rfl
    · cases processed
      rfl
  · split at processed
    · next server =>
      rw [if_pos ⟨handshake, congrArg some server⟩]
      split at processed
      · cases processed
      · next error parsed =>
        cases processed
        rw [parsed]
      · next result parsed =>
        rw [session, Option.bind_some] at processed
        cases processed
        rw [parsed]
    · next server =>
      cases processed
      rw [if_neg (by simpa using fun _ => server)]

theorem tlsStep_effect {dispatch : Dispatch} {source destination : Endpoint}
    (sent : dispatch.Sent source destination) {before after : TlsStore}
    (stepped : tlsStep before dispatch = some after) :
    TlsEffect source destination dispatch.2 before after := by
  obtain ⟨packet, payload⟩ := dispatch
  obtain ⟨tcp, transport, addresses, port, port'⟩ := exists_carried sent.endpoints
  simp only [tlsStep, transport] at stepped
  split at stepped
  · next handshake =>
    have followed := processSslHello_follows addresses handshake tcp before
    rw [stepped] at followed
    refine ⟨?_, by simpa only [← port] using followed.exists_takes⟩
    rw [sessions_of_processSslHello addresses handshake stepped, ← port, ← port']
  · next other =>
    cases stepped
    refine ⟨?_, ⟨[], []⟩, payloadConfig_of_other (.inr other), .nothing _ _⟩
    rw [serverGroup, if_neg fun server => other server.1]

/-! ## Groups that are kept -/

/-- Once the connection has the group, it has it after every later dispatch of the row. -/
def GroupKept (row : List Dispatch) (server client : Endpoint) (group : UInt16) : Prop :=
  Runs.Persists tlsStep .empty row fun store =>
    store.tlsSessions.lookup (sessionKey server client) = some group

/-- Whenever the connection has the group and its server sends what begins as a server hello, that
hello chooses the group again. -/
def ChosenAgain (row : List Dispatch) (server client : Endpoint) (group : UInt16) : Prop :=
  ∀ earlier dispatch later store, row = earlier ++ dispatch :: later →
    runTls earlier = some store →
    store.tlsSessions.lookup (sessionKey server client) = some group →
    dispatch.Sent server client → IsServerHello dispatch.2 → Chooses dispatch.2 group

variable {capture : List (Option SlicedPacket)} {state : CaptureState} {server client : Endpoint}
  {group : UInt16}

theorem TlsEffect.chooses {payload : Bytes} {before after : TlsStore}
    (effect : TlsEffect server client payload before after) (hello : IsServerHello payload)
    (nonzero : group ≠ 0)
    (kept : after.tlsSessions.lookup (sessionKey server client) = some group) :
    Chooses payload group := by
  obtain ⟨config, configEq, -⟩ := effect.maps
  obtain ⟨set, found⟩ := hello.exists_serverGroup (by simp [configEq])
  rw [effect.sessions, found, Finmap.lookup_insert, Option.some.injEq] at kept
  subst kept
  rcases (serverGroup_cases found).2 with chooses | ⟨-, zero⟩
  · exact chooses
  · exact absurd zero nonzero

theorem TlsEffect.keeps {source destination : Endpoint} {payload : Bytes} {before after : TlsStore}
    (effect : TlsEffect source destination payload before after)
    (holds : before.tlsSessions.lookup (sessionKey server client) = some group)
    (again : source = server → destination = client → IsServerHello payload →
      Chooses payload group) :
    after.tlsSessions.lookup (sessionKey server client) = some group := by
  rw [effect.sessions]
  cases found : serverGroup payload with
  | none => exact holds
  | some set =>
    by_cases same : sessionKey server client = sessionKey source destination
    · obtain ⟨rfl, rfl⟩ := sessionKey_inj.mp same
      obtain ⟨hello, chosen⟩ := serverGroup_cases found
      have chooses := again rfl rfl hello
      rw [Finmap.lookup_insert, Option.some.injEq]
      rcases chosen with set | ⟨none, -⟩
      · exact set.unique chooses
      · exact absurd chooses (none group)
    · rwa [Finmap.lookup_insert_of_ne _ same]

/-- A group is kept exactly as long as every later server hello of the connection chooses it. -/
theorem groupKept_iff (result : runCapture capture = some state) (server client : Endpoint)
    (nonzero : group ≠ 0) :
    GroupKept (trace capture) server client group ↔
      ChosenAgain (trace capture) server client group := by
  obtain ⟨recorded, -⟩ := stores_of_runCapture result
  rw [GroupKept, Runs.persists_iff]
  constructor
  · intro kept earlier dispatch later before split reached holds sent hello
    obtain ⟨after, stepped⟩ := Runs.exists_step_of_run recorded split reached
    have effect := tlsStep_effect sent stepped
    exact effect.chooses hello nonzero
      (kept earlier dispatch later before after split reached stepped holds)
  · intro again earlier dispatch later before after split reached stepped holds
    obtain ⟨-, source, destination, sent⟩ :=
      mem_dispatches (show dispatch ∈ trace capture by simp [split])
    apply (tlsStep_effect sent stepped).keeps holds
    rintro rfl rfl
    exact again earlier dispatch later before split reached holds sent

theorem GroupKept.lookup_after {past more : List (Option SlicedPacket)}
    (kept : GroupKept (trace (past ++ more)) server client group) {before after : CaptureState}
    (earlier : runCapture past = some before) (later : runCapture (past ++ more) = some after)
    (holds : before.tls.tlsSessions.lookup (sessionKey server client) = some group) :
    after.tls.tlsSessions.lookup (sessionKey server client) = some group := by
  obtain ⟨first, -⟩ := stores_of_runCapture earlier
  obtain ⟨last, -⟩ := stores_of_runCapture later
  have split : trace (past ++ more) = trace past ++ dispatches (flowsAfter ∅ past) more :=
    dispatches_append ∅ past more
  rw [runTls] at first
  rw [runTls, split, Runs.run_append, first, Option.bind_some] at last
  exact kept (trace past) _ [] before.tls after.tls (by rw [split, List.append_nil]) first last
    holds

/-! ## A retransmitted request -/

def tlsServer : Endpoint := (.v4 ⟨10, 0, 0, 2⟩, 443)

def tlsClient : Endpoint := (.v4 ⟨10, 0, 0, 1⟩, 50000)

def fromServer : Sender where
  net := .ipv4 ⟨10, 0, 0, 2⟩ ⟨10, 0, 0, 1⟩
  source := tlsServer.1
  destination := tlsClient.1
  sourcePort := tlsServer.2
  destinationPort := tlsClient.2
  addresses _ := rfl

def retried : List (Option SlicedPacket) :=
  fromServer.packets 1 [retryRequest.record 3, answer.record 3]

/-- The server asks for the group 0x001d and answers with it. The request is sent again, and the
group is replaced by zero. -/
theorem group_lost :
    Chooses (answer.record 3) 0x001d ∧ (∀ group, ¬Chooses (retryRequest.record 3) group) ∧
    ∃ before after, runCapture retried = some before ∧
      runCapture (retried ++ [some (fromServer.packet 1 (retryRequest.record 3))]) = some after ∧
      before.tls.tlsSessions.lookup (sessionKey tlsServer tlsClient) = some 0x001d ∧
      after.tls.tlsSessions.lookup (sessionKey tlsServer tlsClient) = some 0 ∧
      ¬GroupKept (trace (retried ++ [some (fromServer.packet 1 (retryRequest.record 3))]))
        tlsServer tlsClient 0x001d := by
  have chosen : (runCapture retried).map (fun state =>
      state.tls.tlsSessions.lookup (sessionKey tlsServer tlsClient)) = some (some 0x001d) := by
    decide +kernel
  have lost : (runCapture (retried ++ [some (fromServer.packet 1 (retryRequest.record 3))])).map
      (fun state => state.tls.tlsSessions.lookup (sessionKey tlsServer tlsClient)) =
        some (some 0) := by
    decide +kernel
  obtain ⟨before, earlier, holds⟩ := Option.map_eq_some_iff.mp chosen
  obtain ⟨after, later, replaced⟩ := Option.map_eq_some_iff.mp lost
  refine ⟨chooses_answer 3, not_chooses_retryRequest 3, before, after, earlier, later, holds,
    replaced, fun kept => ?_⟩
  have still := kept.lookup_after earlier later holds
  rw [replaced] at still
  cases still

theorem answer_kept :
    GroupKept (trace [some (fromServer.packet 1 (answer.record 3)),
      some (fromServer.packet 1 (answer.record 3))]) tlsServer tlsClient 0x001d := by
  have completes : (runCapture [some (fromServer.packet 1 (answer.record 3)),
      some (fromServer.packet 1 (answer.record 3))]).isSome := by
    decide +kernel
  obtain ⟨state, result⟩ := Option.isSome_iff_exists.mp completes
  have payloads : ∀ dispatch ∈ trace [some (fromServer.packet 1 (answer.record 3)),
      some (fromServer.packet 1 (answer.record 3))], dispatch.2 = answer.record 3 := by
    decide +kernel
  refine (groupKept_iff result tlsServer tlsClient (by decide)).mpr ?_
  intro earlier dispatch later store split _ _ _ _
  rw [payloads dispatch (by simp [split])]
  exact chooses_answer 3

end PqcUtils.Dump

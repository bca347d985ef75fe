import PqcUtils.Dump.Capture
import PqcUtils.Dump.Ssh.Parsing
import PqcUtils.Dump.Tls.Parsing

/-!
# What a packet records

Every payload a packet is dispatched with adds one configuration to the TLS maps
under the key of its sender, possibly an empty one. A packet is dispatched with
its own payload and with the buffer the reassembler joins for it.
-/

namespace PqcUtils.Dump

open Bytes Net

/-! ## Inserting under a key -/

theorem mem_insertAt {map : HashMap String (Finset UInt16)} {key other : String} {val : UInt16} :
    other ∈ insertAt map key val ↔ other = key ∨ other ∈ map :=
  HashMap.mem_update

theorem mem_insertAllAt {map : HashMap String (Finset UInt16)} {key other : String}
    {vals : List UInt16} :
    other ∈ insertAllAt map key vals ↔ other ∈ map ∨ other = key ∧ vals ≠ [] := by
  induction vals generalizing map with
  | nil => simp [insertAllAt]
  | cons val vals ih =>
    have step : insertAllAt map key (val :: vals) =
        insertAllAt (insertAt map key val) key vals := rfl
    rw [step, ih, mem_insertAt]
    by_cases same : other = key <;> simp [same]

def valuesAt (map : HashMap String (Finset UInt16)) (key : String) : Finset UInt16 :=
  (map.lookup key).getD ∅

theorem exists_lookup_of_mem_valuesAt {map : HashMap String (Finset UInt16)} {key : String}
    {val : UInt16} (recorded : val ∈ valuesAt map key) :
    ∃ values, map.lookup key = some values ∧ val ∈ values := by
  unfold valuesAt at recorded
  cases found : map.lookup key with
  | none => simp [found] at recorded
  | some values => exact ⟨values, rfl, by simpa [found] using recorded⟩

theorem mem_valuesAt_insertAt {map : HashMap String (Finset UInt16)} {key other : String}
    {val new : UInt16} :
    val ∈ valuesAt (insertAt map key new) other ↔
      val ∈ valuesAt map other ∨ other = key ∧ val = new := by
  unfold valuesAt
  by_cases same : other = key
  · subst same
    rw [insertAt, HashMap.lookup_update_self, Option.getD_some, Finset.mem_insert]
    tauto
  · rw [insertAt, HashMap.lookup_update_of_ne _ _ _ same]
    simp [same]

theorem mem_valuesAt_insertAllAt {map : HashMap String (Finset UInt16)} {key other : String}
    {vals : List UInt16} {val : UInt16} :
    val ∈ valuesAt (insertAllAt map key vals) other ↔
      val ∈ valuesAt map other ∨ other = key ∧ val ∈ vals := by
  induction vals generalizing map with
  | nil => simp [insertAllAt]
  | cons new vals ih =>
    have step : insertAllAt map key (new :: vals) =
        insertAllAt (insertAt map key new) key vals := rfl
    rw [step, ih, mem_valuesAt_insertAt, List.mem_cons]
    tauto

/-! ## Payloads -/

/-- What a payload adds for its sender: the content of a hello, or nothing. The parser may
panic. -/
def payloadConfig (payload : Bytes) : Option CryptoConfig :=
  if isTlsHandshake payload then
    if payload[5]? = some 0x01 then
      match parseSslV3ClientHello payload with
      | .panic => none
      | .err _ => some ⟨[], []⟩
      | .ok result => some result
    else if payload[5]? = some 0x02 then
      match parseServerHelloV3 payload with
      | .panic => none
      | .err _ => some ⟨[], []⟩
      | .ok result => some ⟨result.ciphers, [result.keyshare]⟩
    else some ⟨[], []⟩
  else some ⟨[], []⟩

structure TlsStore.Takes (before : TlsStore) (key : String) (config : CryptoConfig)
    (after : TlsStore) : Prop where
  ciphers : after.tlsCiphers = insertAllAt before.tlsCiphers key config.ciphers
  groups : after.keyshareGroups = insertAllAt before.keyshareGroups key config.keyshareGroups

theorem TlsStore.Takes.nothing (store : TlsStore) (key : String) :
    store.Takes key ⟨[], []⟩ store := ⟨rfl, rfl⟩

/-- A step that panics exactly when there is nothing to take in, and takes it in otherwise. -/
inductive TlsStore.Follows (before : TlsStore) (key : String) :
    Option CryptoConfig → Option TlsStore → Prop where
  | panics : Follows before key none none
  | takes {config : CryptoConfig} {after : TlsStore} :
      before.Takes key config after → Follows before key (some config) (some after)

theorem TlsStore.Follows.eq_none {before : TlsStore} {key : String} {config : Option CryptoConfig}
    (follows : before.Follows key config none) : config = none := by
  cases follows
  rfl

theorem TlsStore.Follows.exists_takes {before after : TlsStore} {key : String}
    {config : Option CryptoConfig} (follows : before.Follows key config (some after)) :
    ∃ content, config = some content ∧ before.Takes key content after := by
  cases follows with
  | takes taken => exact ⟨_, rfl, taken⟩

theorem processSslHello_follows {packet : SlicedPacket} {source destination : IpAddr}
    (ip : packet.addresses = some (source, destination)) {payload : Bytes}
    (handshake : isTlsHandshake payload) (tcp : TcpSlice) (store : TlsStore) :
    store.Follows (tlsKey source tcp.sourcePort) (payloadConfig payload)
      (processSslHello packet payload tcp store) := by
  obtain ⟨handshakeType, found⟩ : ∃ handshakeType, payload[5]? = some handshakeType :=
    ⟨payload.get ⟨5, handshake.1⟩, List.getElem?_eq_getElem handshake.1⟩
  have key : packet.tlsKey tcp = tlsKey source tcp.sourcePort := by
    simp [SlicedPacket.tlsKey, ip]
  obtain ⟨sessionKey, session⟩ : ∃ sessionKey, packet.tlsSessionKey tcp = some sessionKey := by
    simp [SlicedPacket.tlsSessionKey, ip]
  rw [payloadConfig, if_pos handshake, processSslHello]
  simp only [found, Option.bind_eq_bind, Option.bind_some, Option.some.injEq, key]
  by_cases client : handshakeType = 0x01
  · rw [if_pos client, if_pos client]
    cases parseSslV3ClientHello payload with
    | panic => exact .panics
    | err error => exact .takes (.nothing _ _)
    | ok result => exact .takes ⟨rfl, rfl⟩
  rw [if_neg client, if_neg client]
  by_cases server : handshakeType = 0x02
  · rw [if_pos server, if_pos server]
    cases parseServerHelloV3 payload with
    | panic => exact .panics
    | err error => exact .takes (.nothing _ _)
    | ok result =>
      simp only [session, Option.bind_some]
      exact .takes ⟨rfl, rfl⟩
  · rw [if_neg server, if_neg server]
    exact .takes (.nothing _ _)

theorem processSsh_isSome (packet : SlicedPacket) (payload : Bytes) (store : SshStore) :
    ∃ after, processSsh packet payload store = some after := by
  unfold processSsh
  cases parsed : parseSshKexinit payload with
  | panic => exact absurd parsed (parseSshKexinit_ne_panic payload)
  | err error => exact ⟨store, rfl⟩
  | ok kex => cases packet.endpoints <;> exact ⟨_, rfl⟩

/-- One dispatch of a payload: only the TLS parsers can panic, and the TLS maps take in what the
payload carries. -/
theorem processPacketHelper_follows {packet : SlicedPacket} {source destination : IpAddr}
    (ip : packet.addresses = some (source, destination)) {payload : Bytes}
    (long : 6 ≤ payload.length) (tcp : TcpSlice) (state : CaptureState) :
    state.tls.Follows (tlsKey source tcp.sourcePort) (payloadConfig payload)
      ((processPacketHelper packet payload tcp state).map CaptureState.tls) ∧
    ∀ after, processPacketHelper packet payload tcp state = some after →
      after.reassembler = state.reassembler := by
  obtain ⟨messageNumber, found⟩ : ∃ messageNumber, payload[5]? = some messageNumber :=
    ⟨payload.get ⟨5, long⟩, List.getElem?_eq_getElem long⟩
  obtain ⟨ssh, recorded⟩ : ∃ ssh, (if messageNumber = sshMsgKexinit then
      processSsh packet payload state.ssh else some state.ssh) = some ssh := by
    split
    · exact processSsh_isSome packet payload state.ssh
    · exact ⟨state.ssh, rfl⟩
  simp only [processPacketHelper, found, recorded, Option.bind_eq_bind, Option.bind_some]
  by_cases handshake : isTlsHandshake payload
  · have followed := processSslHello_follows ip handshake tcp state.tls
    rw [if_pos handshake]
    cases processed : processSslHello packet payload tcp state.tls with
    | none =>
      rw [processed] at followed
      exact ⟨followed, nofun⟩
    | some tls =>
      rw [processed] at followed
      refine ⟨followed, ?_⟩
      rintro after ⟨rfl⟩
      rfl
  · rw [payloadConfig, if_neg handshake, if_neg handshake]
    refine ⟨.takes (.nothing _ _), ?_⟩
    rintro after ⟨rfl⟩
    rfl

theorem payloadConfig_of_other {payload : Bytes}
    (other : payload[5]? ≠ some 0x01 ∧ payload[5]? ≠ some 0x02 ∨ ¬isTlsHandshake payload) :
    payloadConfig payload = some ⟨[], []⟩ := by
  unfold payloadConfig
  rcases other with ⟨notClient, notServer⟩ | notHandshake
  · rw [if_neg notClient, if_neg notServer, ite_self]
  · rw [if_neg notHandshake]

/-- A client hello record that is cut off adds nothing. -/
theorem payloadConfig_cut (hello : Wire.ClientHello) {minor : UInt8} {payload : Bytes}
    (long : 6 ≤ payload.length) (initial : payload <+: hello.record minor)
    (cut : payload.length < (hello.record minor).length) :
    payloadConfig payload = some ⟨[], []⟩ := by
  obtain ⟨missing, complete⟩ := initial
  have client : payload[5]? = some 0x01 := by
    have same : (payload ++ missing)[5]? = payload[5]? := List.getElem?_append_left (by omega)
    rw [← same, complete]
    rfl
  obtain ⟨front, length_front, split⟩ := hello.record_eq minor
  rw [hello.length_record] at cut
  obtain ⟨error, rejected⟩ :=
    parseSslV3ClientHello_cut hello length_front ⟨missing, complete.trans split⟩ cut
  by_cases handshake : isTlsHandshake payload
  · rw [payloadConfig, if_pos handshake, if_pos client, rejected]
  · exact payloadConfig_of_other (.inr handshake)

/-! ## Packets -/

theorem TcpReassembler.length_le_of_push {flows : TcpReassembler} {key : TcpFlowKey} {seq : UInt32}
    {payload data : Bytes} (joined : (flows.push key seq payload).1 = some data) :
    payload.length ≤ data.length := by
  simp only [push, TcpJoiner.push] at joined
  split at joined
  · simp at joined
  · split at joined
    · simp only [Option.some.injEq] at joined
      rw [← joined, List.length_append]
      omega
    · simp at joined

def dispatched (state : CaptureState) (source destination : IpAddr) (tcp : TcpSlice) : List Bytes :=
  tcp.payload :: (state.reassembler.push (tcpFlowKey source destination tcp) tcp.sequenceNumber
    tcp.payload).1.toList

theorem length_of_dispatched {state : CaptureState} {source destination : IpAddr} {tcp : TcpSlice}
    (long : 6 ≤ tcp.payload.length) :
    ∀ payload ∈ dispatched state source destination tcp, 6 ≤ payload.length := by
  intro payload membership
  rcases List.mem_cons.mp membership with rfl | joined
  · exact long
  · have grows := TcpReassembler.length_le_of_push (Option.mem_toList.mp joined)
    omega

/-- A TCP packet that is long enough to be looked at. -/
structure SlicedPacket.Carries (packet : SlicedPacket) (source destination : IpAddr)
    (segment : TcpSlice) : Prop where
  addresses : packet.addresses = some (source, destination)
  tcp : packet.tcp = some segment
  long : 6 ≤ segment.payload.length

theorem carries_or_skipped (sliced : Option SlicedPacket) :
    (∃ packet source destination tcp, sliced = some packet ∧
      packet.Carries source destination tcp) ∨
    ∀ packet source destination tcp, sliced = some packet →
      ¬packet.Carries source destination tcp := by
  by_cases looked : ∃ packet source destination tcp, sliced = some packet ∧
      packet.Carries source destination tcp
  · exact .inl looked
  · exact .inr fun packet source destination tcp same carries =>
      looked ⟨packet, source, destination, tcp, same, carries⟩

theorem captureStep_of_carries {packet : SlicedPacket} {source destination : IpAddr}
    {tcp : TcpSlice} (carries : packet.Carries source destination tcp) (state : CaptureState) :
    captureStep state (some packet) =
      (processPacketHelper packet tcp.payload tcp state).bind fun next =>
        let pushed := next.reassembler.push (tcpFlowKey source destination tcp) tcp.sequenceNumber
          tcp.payload
        match pushed.1 with
        | some data => processPacketHelper packet data tcp { next with reassembler := pushed.2 }
        | none => some { next with reassembler := pushed.2 } := by
  have long : ¬tcp.payload.length < 6 := Nat.not_lt.mpr carries.long
  simp only [captureStep, processPacket, carries.addresses, carries.tcp, if_neg long]
  rfl

theorem captureStep_of_not_carries {sliced : Option SlicedPacket}
    (skipped : ∀ packet source destination tcp, sliced = some packet →
      ¬packet.Carries source destination tcp) (state : CaptureState) :
    captureStep state sliced = some state := by
  unfold captureStep processPacket
  split
  · rfl
  · next packet =>
    split
    · next source destination tcp addresses transport =>
      have short : tcp.payload.length < 6 := by
        by_contra long
        exact skipped packet source destination tcp rfl ⟨addresses, transport, by omega⟩
      rw [if_pos short]
    · rfl

def packetConfig (state : CaptureState) (source destination : IpAddr) (tcp : TcpSlice) :
    Option CryptoConfig :=
  ((dispatched state source destination tcp).mapM payloadConfig).map fun configs =>
    ⟨configs.flatMap CryptoConfig.ciphers, configs.flatMap CryptoConfig.keyshareGroups⟩

theorem TlsStore.Takes.trans {before between after : TlsStore} {key : String}
    {first second : CryptoConfig} (earlier : before.Takes key first between)
    (later : between.Takes key second after) :
    before.Takes key ⟨first.ciphers ++ second.ciphers,
      first.keyshareGroups ++ second.keyshareGroups⟩ after := by
  constructor
  · rw [later.ciphers, earlier.ciphers, insertAllAt, insertAllAt, insertAllAt, List.foldl_append]
  · rw [later.groups, earlier.groups, insertAllAt, insertAllAt, insertAllAt, List.foldl_append]

theorem captureStep_follows {packet : SlicedPacket} {source destination : IpAddr}
    {tcp : TcpSlice} (carries : packet.Carries source destination tcp) (state : CaptureState) :
    state.tls.Follows (tlsKey source tcp.sourcePort) (packetConfig state source destination tcp)
      ((captureStep state (some packet)).map CaptureState.tls) ∧
    ∀ after, captureStep state (some packet) = some after →
      after.reassembler = (state.reassembler.push (tcpFlowKey source destination tcp)
        tcp.sequenceNumber tcp.payload).2 := by
  have long : ∀ payload ∈ dispatched state source destination tcp, 6 ≤ payload.length :=
    length_of_dispatched carries.long
  rw [captureStep_of_carries carries, packetConfig]
  rw [dispatched] at long ⊢
  obtain ⟨raw, kept⟩ := processPacketHelper_follows carries.addresses carries.long tcp state
  cases processed : processPacketHelper packet tcp.payload tcp state with
  | none =>
    rw [processed] at raw
    rw [List.mapM_cons, raw.eq_none]
    exact ⟨.panics, nofun⟩
  | some next =>
    rw [processed] at raw
    obtain ⟨content, payloadEq, taken⟩ := raw.exists_takes
    rw [List.mapM_cons, payloadEq]
    simp only [Option.bind_some, kept next processed]
    generalize state.reassembler.push (tcpFlowKey source destination tcp) tcp.sequenceNumber
      tcp.payload = pushed at long ⊢
    obtain ⟨joined, flows⟩ := pushed
    cases joined with
    | none =>
      refine ⟨.takes ?_, ?_⟩
      · simpa using taken
      · rintro after ⟨rfl⟩
        rfl
    | some data =>
      obtain ⟨rejoined, keptAgain⟩ := processPacketHelper_follows carries.addresses
        (long data (by simp)) tcp { next with reassembler := flows }
      simp only [Option.toList_some]
      cases again : processPacketHelper packet data tcp { next with reassembler := flows } with
      | none =>
        rw [again] at rejoined
        rw [List.mapM_cons, rejoined.eq_none]
        exact ⟨.panics, nofun⟩
      | some after =>
        rw [again] at rejoined
        obtain ⟨more, dataEq, takenAgain⟩ := rejoined.exists_takes
        rw [List.mapM_cons, dataEq]
        refine ⟨.takes ?_, ?_⟩
        · simpa using taken.trans takenAgain
        · rintro last ⟨rfl⟩
          exact keptAgain _ again

/-! ## Runs -/

def TlsStore.HasKey (store : TlsStore) (key : String) : Prop :=
  key ∈ store.tlsCiphers ∨ key ∈ store.keyshareGroups

theorem TlsStore.Takes.hasKey_iff {before after : TlsStore} {key other : String}
    {config : CryptoConfig} (taken : before.Takes key config after) :
    after.HasKey other ↔ before.HasKey other ∨
      other = key ∧ (config.ciphers ≠ [] ∨ config.keyshareGroups ≠ []) := by
  rw [TlsStore.HasKey, TlsStore.HasKey, taken.ciphers, taken.groups, mem_insertAllAt,
    mem_insertAllAt]
  tauto

def Records (state : CaptureState) (sliced : Option SlicedPacket) (endpoint : Endpoint) : Prop :=
  ∃ packet destination tcp config, sliced = some packet ∧
    packet.Carries endpoint.1 destination tcp ∧ endpoint.2 = tcp.sourcePort ∧
    packetConfig state endpoint.1 destination tcp = some config ∧
    (config.ciphers ≠ [] ∨ config.keyshareGroups ≠ [])

/-- At some point of the capture the endpoint's hello is recorded. -/
def RecordedBy (capture : List (Option SlicedPacket)) (endpoint : Endpoint) : Prop :=
  ∃ past sliced rest state, capture = past ++ sliced :: rest ∧ runCapture past = some state ∧
    Records state sliced endpoint

theorem SlicedPacket.Carries.unique {packet : SlicedPacket} {source source' destination
    destination' : IpAddr} {tcp tcp' : TcpSlice} (first : packet.Carries source destination tcp)
    (second : packet.Carries source' destination' tcp') :
    source = source' ∧ destination = destination' ∧ tcp = tcp' := by
  have addresses := first.addresses.symm.trans second.addresses
  have segment := first.tcp.symm.trans second.tcp
  simp only [Option.some.injEq, Prod.mk.injEq] at addresses segment
  exact ⟨addresses.1, addresses.2, segment⟩

theorem captureStep_hasKey_iff {state after : CaptureState} {sliced : Option SlicedPacket}
    (stepped : captureStep state sliced = some after) (key : String) :
    after.tls.HasKey key ↔ state.tls.HasKey key ∨
      ∃ endpoint, Records state sliced endpoint ∧ key = tlsKey endpoint.1 endpoint.2 := by
  rcases carries_or_skipped sliced with ⟨packet, source, destination, tcp, rfl, carries⟩ | skipped
  · obtain ⟨followed, -⟩ := captureStep_follows carries state
    rw [stepped] at followed
    obtain ⟨config, configEq, taken⟩ := followed.exists_takes
    rw [taken.hasKey_iff]
    apply or_congr_right
    constructor
    · rintro ⟨rfl, nonempty⟩
      exact ⟨(source, tcp.sourcePort),
        ⟨packet, destination, tcp, config, rfl, carries, rfl, configEq, nonempty⟩, rfl⟩
    · rintro ⟨⟨ip, port⟩, ⟨packet', destination', tcp', config', same, carries', rfl, configEq',
        nonempty⟩, rfl⟩
      cases same
      obtain ⟨rfl, rfl, rfl⟩ := carries.unique carries'
      cases configEq.symm.trans configEq'
      exact ⟨rfl, nonempty⟩
  · rw [captureStep_of_not_carries skipped, Option.some.injEq] at stepped
    subst stepped
    rw [iff_self_or]
    rintro ⟨endpoint, ⟨packet, destination, tcp, -, same, carries, -⟩, -⟩
    exact absurd carries (skipped _ _ _ _ same)

theorem recordedBy_append {past : List (Option SlicedPacket)} {state : CaptureState}
    (result : runCapture past = some state) {sliced : Option SlicedPacket} {endpoint : Endpoint} :
    RecordedBy (past ++ [sliced]) endpoint ↔
      RecordedBy past endpoint ∨ Records state sliced endpoint := by
  constructor
  · rintro ⟨earlier, entry, rest, state', split, result', records⟩
    rcases List.eq_nil_or_concat rest with rfl | ⟨rest, last, rfl⟩
    · obtain ⟨rfl, same⟩ := List.append_inj' split rfl
      cases same
      cases result.symm.trans result'
      exact .inr records
    · have split' : past ++ [sliced] = (earlier ++ entry :: rest) ++ [last] := by
        simpa using split
      obtain ⟨rfl, -⟩ := List.append_inj' split' rfl
      exact .inl ⟨earlier, entry, rest, state', rfl, result', records⟩
  · rintro (⟨earlier, entry, rest, state', rfl, result', records⟩ | records)
    · exact ⟨earlier, entry, rest ++ [sliced], state', by simp, result', records⟩
    · exact ⟨past, sliced, [], state, rfl, result, records⟩

/-- The state stands at the end of the past, and its keys are those of the recorded endpoints. -/
structure Recorded (past : List (Option SlicedPacket)) (state : CaptureState) : Prop where
  result : runCapture past = some state
  keys : ∀ key, state.tls.HasKey key ↔
    ∃ endpoint, RecordedBy past endpoint ∧ key = tlsKey endpoint.1 endpoint.2

theorem recorded_empty : Recorded [] .empty where
  result := rfl
  keys key := by
    constructor
    · rintro (present | present) <;> exact absurd present Finmap.notMem_empty
    · rintro ⟨endpoint, ⟨past, sliced, rest, state, split, -⟩, -⟩
      exact absurd split (by simp)

theorem Recorded.step {past : List (Option SlicedPacket)} {before after : CaptureState}
    {sliced : Option SlicedPacket} (recorded : Recorded past before)
    (stepped : captureStep before sliced = some after) : Recorded (past ++ [sliced]) after where
  result := by
    have result : Runs.run captureStep .empty past = some before := recorded.result
    rw [runCapture, Runs.run_append, result, Option.bind_some, Runs.run_cons, stepped]
    rfl
  keys key := by
    simp only [captureStep_hasKey_iff stepped, recorded.keys, recordedBy_append recorded.result,
      or_and_right, exists_or]

theorem recorded_of_run {capture : List (Option SlicedPacket)} {state : CaptureState}
    (result : runCapture capture = some state) : Recorded capture state :=
  Runs.history_of_run Recorded (fun _ _ _ _ recorded stepped => recorded.step stepped) []
    recorded_empty result

end PqcUtils.Dump

import PqcUtils.Dump.Sessions

/-!
# Where the records come from

Each entry of the TLS maps was told by some dispatch of the capture, under the
key of its sender. What a dispatch tells is what its payload carries as a hello,
except for a server hello that chooses no group: it tells of the group zero.
-/

namespace PqcUtils.Dump

open Net Wire

/-! ## What a dispatch tells -/

/-- The dispatch is sent between these endpoints and adds this configuration. -/
structure Dispatch.Tells (dispatch : Dispatch) (source destination : Endpoint)
    (config : CryptoConfig) : Prop where
  sent : dispatch.Sent source destination
  config : payloadConfig dispatch.2 = some config

theorem Dispatch.Sent.unique {dispatch : Dispatch} {source destination source' destination' :
    Endpoint} (first : dispatch.Sent source destination)
    (second : dispatch.Sent source' destination') :
    source = source' ∧ destination = destination' := by
  simpa using first.endpoints.symm.trans second.endpoints

theorem Dispatch.Tells.unique {dispatch : Dispatch} {source destination source' destination' :
    Endpoint} {config config' : CryptoConfig} (first : dispatch.Tells source destination config)
    (second : dispatch.Tells source' destination' config') :
    source = source' ∧ destination = destination' ∧ config = config' := by
  obtain ⟨sources, destinations⟩ := first.sent.unique second.sent
  exact ⟨sources, destinations, by simpa using first.config.symm.trans second.config⟩

def IsClientHello (payload : Bytes) : Prop := isTlsHandshake payload ∧ payload[5]? = some 0x01

theorem payloadConfig_of_serverGroup {payload : Bytes} {group : UInt16}
    (set : serverGroup payload = some group) :
    ∃ suite, payloadConfig payload = some ⟨[suite], [group]⟩ := by
  obtain ⟨handshake, server, result, parsed, rfl⟩ := serverGroup_eq_some_iff.mp set
  have notClient : payload[5]? ≠ some 0x01 := by
    rw [server]
    decide
  obtain ⟨-, suite, length, rest, upTo⟩ := exists_serverHelloUpTo parsed
  have suites : result.ciphers = [suite] := ciphers_of_parsed parsed upTo server
  refine ⟨suite, ?_⟩
  rw [payloadConfig, if_pos handshake, if_neg notClient, if_pos server, parsed, ← suites]

theorem payloadConfig_cases {payload : Bytes} {config : CryptoConfig}
    (told : payloadConfig payload = some config) :
    IsClientHello payload ∧ parseSslV3ClientHello payload = .ok config ∨
    (∃ suite group, serverGroup payload = some group ∧ config = ⟨[suite], [group]⟩) ∨
    config = ⟨[], []⟩ := by
  by_cases set : ∃ group, serverGroup payload = some group
  · obtain ⟨group, set⟩ := set
    obtain ⟨suite, same⟩ := payloadConfig_of_serverGroup set
    rw [same, Option.some.injEq] at told
    exact .inr (.inl ⟨suite, group, set, told.symm⟩)
  unfold payloadConfig at told
  split at told
  · next handshake =>
    split at told
    · next client =>
      split at told
      · cases told
      · cases told
        exact .inr (.inr rfl)
      · next parsed =>
        cases told
        exact .inl ⟨⟨handshake, client⟩, parsed⟩
    · split at told
      · next server =>
        split at told
        · cases told
        · cases told
          exact .inr (.inr rfl)
        · next result parsed =>
          exact absurd ⟨_, serverGroup_eq_some_iff.mpr ⟨handshake, server, result, parsed, rfl⟩⟩
            set
      · cases told
        exact .inr (.inr rfl)
  · cases told
    exact .inr (.inr rfl)

/-! ## A map and what it was told -/

/-- The map holds, under the key of each sender, what the dispatches have told of it. -/
structure Filled (row : List Dispatch) (part : CryptoConfig → List UInt16)
    (map : HashMap String (Finset UInt16)) : Prop where
  values : ∀ key value, value ∈ valuesAt map key ↔ ∃ dispatch ∈ row, ∃ source destination config,
    dispatch.Tells source destination config ∧ tlsKey source.1 source.2 = key ∧
      value ∈ part config
  keys : ∀ key, key ∈ map ↔ ∃ dispatch ∈ row, ∃ source destination config,
    dispatch.Tells source destination config ∧ tlsKey source.1 source.2 = key ∧ part config ≠ []

theorem filled_empty (part : CryptoConfig → List UInt16) : Filled [] part ∅ :=
  ⟨by simp [valuesAt], by simp [Finmap.notMem_empty]⟩

theorem Filled.step {row : List Dispatch} {part : CryptoConfig → List UInt16}
    {map : HashMap String (Finset UInt16)} (filled : Filled row part map) {dispatch : Dispatch}
    {source destination : Endpoint} {config : CryptoConfig}
    (tells : dispatch.Tells source destination config) :
    Filled (row ++ [dispatch]) part
      (insertAllAt map (tlsKey source.1 source.2) (part config)) := by
  have last (key : String) (Adds : CryptoConfig → Prop) :
      (∃ source destination config, dispatch.Tells source destination config ∧
        tlsKey source.1 source.2 = key ∧ Adds config) ↔
      key = tlsKey source.1 source.2 ∧ Adds config := by
    constructor
    · rintro ⟨source', destination', config', tells', rfl, adds⟩
      obtain ⟨rfl, rfl, rfl⟩ := tells.unique tells'
      exact ⟨rfl, adds⟩
    · rintro ⟨rfl, adds⟩
      exact ⟨source, destination, config, tells, rfl, adds⟩
  constructor
  · intro key value
    rw [mem_valuesAt_insertAllAt, filled.values, ← last key fun config => value ∈ part config]
    simp [or_and_right, exists_or]
  · intro key
    rw [mem_insertAllAt, filled.keys, ← last key fun config => part config ≠ []]
    simp [or_and_right, exists_or]

def Answered (row : List Dispatch) (server client : Endpoint) : Prop :=
  ∃ dispatch ∈ row, ∃ group, dispatch.Sent server client ∧ serverGroup dispatch.2 = some group

structure Told (row : List Dispatch) (store : TlsStore) : Prop where
  ciphers : Filled row CryptoConfig.ciphers store.tlsCiphers
  groups : Filled row CryptoConfig.keyshareGroups store.keyshareGroups
  sessions : ∀ key, key ∈ store.tlsSessions ↔
    ∃ server client, Answered row server client ∧ sessionKey server client = key
  chosen : ∀ server client group,
    store.tlsSessions.lookup (sessionKey server client) = some group →
      group ∈ valuesAt store.keyshareGroups (tlsKey server.1 server.2)

theorem told_empty : Told [] .empty where
  ciphers := filled_empty _
  groups := filled_empty _
  sessions := by simp [TlsStore.empty, Answered, Finmap.notMem_empty]
  chosen := by simp [TlsStore.empty]

theorem Told.step {row : List Dispatch} {before after : TlsStore} (told : Told row before)
    {dispatch : Dispatch} {source destination : Endpoint}
    (sent : dispatch.Sent source destination) (stepped : tlsStep before dispatch = some after) :
    Told (row ++ [dispatch]) after := by
  obtain ⟨sessions, config, configEq, taken⟩ := tlsStep_effect sent stepped
  have tells : dispatch.Tells source destination config := ⟨sent, configEq⟩
  have groups : Filled (row ++ [dispatch]) CryptoConfig.keyshareGroups after.keyshareGroups := by
    rw [taken.groups]
    exact told.groups.step tells
  have answered (server client : Endpoint) : Answered (row ++ [dispatch]) server client ↔
      Answered row server client ∨ (server = source ∧ client = destination) ∧
        ∃ group, serverGroup dispatch.2 = some group := by
    constructor
    · rintro ⟨other, membership, group, sent', set⟩
      rcases List.mem_append.mp membership with earlier | now
      · exact .inl ⟨other, earlier, group, sent', set⟩
      · cases List.mem_singleton.mp now
        exact .inr ⟨sent'.unique sent, group, set⟩
    · rintro (⟨other, earlier, answer⟩ | ⟨⟨rfl, rfl⟩, group, set⟩)
      · exact ⟨other, List.mem_append_left _ earlier, answer⟩
      · exact ⟨dispatch, by simp, group, sent, set⟩
  refine ⟨by rw [taken.ciphers]; exact told.ciphers.step tells, groups, fun key => ?_, ?_⟩
  · simp only [sessions, answered, or_and_right, exists_or, ← told.sessions]
    cases set : serverGroup dispatch.2 with
    | none => simp
    | some group =>
      rw [Finmap.mem_insert, or_comm]
      simp [eq_comm]
  · intro server client group found
    rw [sessions] at found
    rw [taken.groups, mem_valuesAt_insertAllAt]
    cases set : serverGroup dispatch.2 with
    | none =>
      simp only [set] at found
      exact .inl (told.chosen server client group found)
    | some set' =>
      obtain ⟨suite, same⟩ := payloadConfig_of_serverGroup set
      rw [configEq, Option.some.injEq] at same
      simp only [set, HashMap.lookup_insert_eq_some_iff, sessionKey_inj] at found
      rcases found with ⟨⟨rfl, rfl⟩, rfl⟩ | ⟨-, there⟩
      · exact .inr ⟨rfl, by simp [same]⟩
      · exact .inl (told.chosen server client group there)

theorem told_of_run {row : List Dispatch} {store : TlsStore}
    (sent : ∀ dispatch ∈ row, ∃ source destination, dispatch.Sent source destination)
    (result : runTls row = some store) : Told row store := by
  have told := Runs.history_of_run (fun (past : List Dispatch) state =>
    (∀ dispatch ∈ past, ∃ source destination, dispatch.Sent source destination) → Told past state)
    ?_ [] (fun _ => told_empty) result
  · exact told sent
  intro past before dispatch after earlier stepped sent
  obtain ⟨source, destination, now⟩ := sent dispatch (by simp)
  exact (earlier fun dispatch membership => sent dispatch (by simp [membership])).step now stepped

theorem told_of_runCapture {capture : List (Option SlicedPacket)} {state : CaptureState}
    (result : runCapture capture = some state) : Told (trace capture) state.tls :=
  told_of_run (fun _ membership => (mem_dispatches membership).2) (stores_of_runCapture result).1

theorem exists_tells {capture : List (Option SlicedPacket)} {state : CaptureState}
    (result : runCapture capture = some state) {dispatch : Dispatch}
    (membership : dispatch ∈ trace capture) {source destination : Endpoint}
    (sent : dispatch.Sent source destination) :
    ∃ config, dispatch.Tells source destination config := by
  obtain ⟨before, after, stepped⟩ :=
    Runs.exists_step_of_mem (stores_of_runCapture result).1 membership
  obtain ⟨-, config, configEq, -⟩ := tlsStep_effect sent stepped
  exact ⟨config, sent, configEq⟩

end PqcUtils.Dump

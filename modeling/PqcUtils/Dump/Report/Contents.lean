import PqcUtils.Dump.Handshakes
import PqcUtils.Dump.Report.Orders
import PqcUtils.Dump.Ssh.Advertised
import PqcUtils.Dump.Ssh.Openings
import PqcUtils.Library.Buckets

/-!
# What a report says

The report lists the hosts of a capture, and has for each protocol a table with the
algorithms of a host and one with its sessions. What stands in them was told by the
packets of the capture, and what these have told stands in them.
-/

namespace PqcUtils.Dump

open Net HashMap

variable {tables : Tables}

/-! ## What a loop adds to its table -/

def Addition.row (addition : Option Addition) : Option (String × Finset SessionResult) :=
  addition.map fun addition => (addition.host, addition.results)

theorem adds_hostCapsStep (before : Report) (entry : String × HostCapabilities) (after : Report)
    (stepped : hostCapsStep tables before entry = some after) :
    Adds Report.sshHostsPqcAlgos
      (some (entry.1, entry.2.supportedKex.biUnion (kexDetails tables.kexAlgos))) before after := by
  cases stepped
  rfl

theorem adds_sshSessionStep (before : Report) (entry : FlowKey × SshSession) (after : Report)
    (stepped : sshSessionStep tables before entry = some after) :
    Adds Report.sshSessionsResults (Addition.row (sshAddition tables entry).join)
      before after := by
  rw [sshSessionStep_eq] at stepped
  cases added : sshAddition tables entry with
  | none => simp [added] at stepped
  | some addition =>
    rw [added, Option.map_some] at stepped
    cases addition <;> cases stepped <;> rfl

theorem adds_tlsCiphersStep (before : Report) (entry : String × Finset UInt16) (after : Report)
    (stepped : tlsCiphersStep tables before entry = some after) :
    Adds Report.tlsHostsCiphers ((printedIp entry.1).map fun ip =>
      (ip, entry.2.image (cipherName tables.cipherSuites))) before after := by
  simp only [tlsCiphersStep, Option.bind_eq_bind, Option.bind_eq_some_iff] at stepped
  obtain ⟨ip, read, stepped⟩ := stepped
  cases stepped
  rw [read]
  rfl

theorem adds_keyshareStep (before : Report) (entry : String × Finset UInt16) (after : Report)
    (stepped : keyshareStep tables before entry = some after) :
    Adds Report.tlsHostCapabilities ((printedIp entry.1).map fun ip =>
      (ip, entry.2.biUnion (groupDetails tables.groups))) before after := by
  simp only [keyshareStep, Option.bind_eq_bind, Option.bind_eq_some_iff] at stepped
  obtain ⟨ip, read, stepped⟩ := stepped
  cases stepped
  rw [read]
  rfl

theorem adds_tlsSessionStep (before : Report) (entry : TlsSessionKey × UInt16) (after : Report)
    (stepped : tlsSessionStep tables before entry = some after) :
    Adds Report.tlsSessionsResults (Addition.row (some (tlsAddition tables entry)))
      before after := by
  rw [tlsSessionStep_eq] at stepped
  cases stepped
  rfl

/-! ## What the maps say -/

/-- What the tables hold, in terms of the maps they were made from. -/
structure Report.Tabulates (tables : Tables) (state : CaptureState) (report : Report) : Prop where
  sshAlgos : ∀ host details, details ∈ report.sshHostsPqcAlgos.members host ↔
    ∃ caps, state.ssh.hostCaps.lookup host = some caps ∧
      details ∈ caps.supportedKex.biUnion (kexDetails tables.kexAlgos)
  sshSessions : ∀ ip shown, shown ∈ report.sshSessionsResults.members ip ↔
    ∃ flow session addition, state.ssh.sessions.lookup flow = some session ∧
      sshAddition tables (flow, session) = some (some addition) ∧ addition.host = ip ∧
      shown ∈ addition.results
  tlsCiphers : ∀ host name, name ∈ report.tlsHostsCiphers.members host ↔
    ∃ key values, state.tls.tlsCiphers.lookup key = some values ∧ printedIp key = some host ∧
      name ∈ values.image (cipherName tables.cipherSuites)
  tlsGroups : ∀ host details, details ∈ report.tlsHostCapabilities.members host ↔
    ∃ key values, state.tls.keyshareGroups.lookup key = some values ∧ printedIp key = some host ∧
      details ∈ values.biUnion (groupDetails tables.groups)
  tlsSessions : ∀ ip shown, shown ∈ report.tlsSessionsResults.members ip ↔
    ∃ key value, state.tls.tlsSessions.lookup key = some value ∧
      (tlsAddition tables (key, value)).host = ip ∧
      shown ∈ (tlsAddition tables (key, value)).results

variable {orders : Orders} {state : CaptureState} {report : Report}

theorem tabulates_of_runReport (visits : orders.Visits state)
    (completes : runReport tables orders = some report) : report.Tabulates tables state := by
  obtain ⟨first, second, third, fourth, fifth, stages⟩ := exists_stages completes
  have hostsFrame := hostCaps_frame stages.hostCaps
  have sshFrame := sshSessions_frame stages.sshSessions
  have ciphersFrame := tlsCiphers_frame stages.tlsCiphers
  have groupsFrame := keyshare_frame stages.keyshareGroups
  have labelsFrame := tls12_frame stages.tlsHosts
  have sessionsFrame := tlsSessions_frame stages.tlsSessions
  have noSshSessions : first.sshSessionsResults = ∅ := by rw [hostsFrame, Report.empty]
  have noCiphers : second.tlsHostsCiphers = ∅ := by rw [sshFrame, hostsFrame, Report.empty]
  have noGroups : third.tlsHostCapabilities = ∅ := by
    rw [ciphersFrame, sshFrame, hostsFrame, Report.empty]
  have noTlsSessions : fifth.tlsSessionsResults = ∅ := by
    rw [labelsFrame, groupsFrame, ciphersFrame, sshFrame, hostsFrame, Report.empty]
  constructor
  · intro host details
    rw [sessionsFrame, labelsFrame, groupsFrame, ciphersFrame, sshFrame,
      members_of_visit adds_hostCapsStep visits.hostCaps stages.hostCaps rfl]
    simp
  · intro ip shown
    rw [sessionsFrame, labelsFrame, groupsFrame, ciphersFrame,
      members_of_visit adds_sshSessionStep visits.sshSessions stages.sshSessions noSshSessions]
    simp [Addition.row, Option.join_eq_some_iff, and_assoc]
  · intro host name
    rw [sessionsFrame, labelsFrame, groupsFrame,
      members_of_visit adds_tlsCiphersStep visits.tlsCiphers stages.tlsCiphers noCiphers]
    simp
  · intro host details
    rw [sessionsFrame, labelsFrame,
      members_of_visit adds_keyshareStep visits.keyshareGroups stages.keyshareGroups noGroups]
    simp
  · intro ip shown
    rw [members_of_visit adds_tlsSessionStep visits.tlsSessions stages.tlsSessions noTlsSessions]
    simp [Addition.row]

/-! ## What the packets said -/

def sshShown (client server : Endpoint) (kex : String) (algo : KexAlgo) : SessionResult :=
  ⟨client.1.display, client.2, server.1.display, server.2, kex,
    if algo.pqc then pqcSupportedText else if algo.isHybrid then "Hybrid" else "NOT Supported"⟩

def tlsShown (client server : Endpoint) (group : TlsGroup) : SessionResult :=
  ⟨client.1.display, client.2, server.1.display, server.2, group.name,
    if group.hybrid then "Hybrid" else if group.pqc then "Pure PQC" else "NOT Supported"⟩

theorem sshAddition_flowOf (tables : Tables) (a b : Endpoint) (session : SshSession) :
    sshAddition tables (flowOf a b, session) = some (session.negotiated.map fun neg =>
      match tables.kexAlgos.lookup neg.kex with
      | none => ⟨a.1.display, ∅, 0⟩
      | some algo =>
        ⟨a.1.display, {sshShown a b neg.kex algo}, if algo.pqc then 1 else 0⟩) := by
  obtain ⟨src, readSrc, srcIp, srcPort⟩ := parse_key a
  obtain ⟨dst, readDst, dstIp, dstPort⟩ := parse_key b
  cases negotiated : session.negotiated with
  | none => simp [sshAddition, negotiated]
  | some neg =>
    simp only [sshAddition, negotiated, flowOf, readSrc, readDst, srcIp, srcPort, dstIp, dstPort,
      Option.bind_some, Option.map_some, Option.some.injEq]
    cases tables.kexAlgos.lookup neg.kex <;> rfl

def ToldFrom (capture : List (Option SlicedPacket)) (part : CryptoConfig → List UInt16)
    (host : String) (value : UInt16) : Prop :=
  ∃ dispatch ∈ trace capture, ∃ source destination config,
    dispatch.Tells source destination config ∧ source.1.display = host ∧ value ∈ part config

theorem toldFrom_iff {capture : List (Option SlicedPacket)} (ipv4 : Ipv4Only capture)
    {part : CryptoConfig → List UInt16} {map : HashMap String (Finset UInt16)}
    (filled : Filled (trace capture) part map) (host : String) (value : UInt16) :
    ToldFrom capture part host value ↔
      ∃ key values, map.lookup key = some values ∧ printedIp key = some host ∧ value ∈ values := by
  constructor
  · rintro ⟨dispatch, membership, ⟨ip, port⟩, destination, config, tells, rfl, told⟩
    obtain ⟨ip, rfl⟩ := tells.sent.ipv4 ipv4 membership
    have stored := (filled.values _ value).mpr
      ⟨dispatch, membership, _, destination, config, tells, rfl, told⟩
    obtain ⟨values, found, among⟩ := exists_lookup_of_mem_valuesAt stored
    exact ⟨_, values, found, printedIp_tlsKey ip port, among⟩
  · rintro ⟨key, values, found, read, among⟩
    have stored : value ∈ valuesAt map key := by simpa [valuesAt, found] using among
    obtain ⟨dispatch, membership, source, destination, config, tells, rfl, told⟩ :=
      (filled.values key value).mp stored
    exact ⟨dispatch, membership, source, destination, config, tells,
      display_of_printedIp read, told⟩

/-- The host has listed an algorithm that the table calls post-quantum or hybrid. -/
def ListsPqc (tables : Tables) (inputs : List SshInput) (host : String) : Prop :=
  ∃ a b kex, a.1.display = host ∧ firstMessage inputs a b = some kex ∧
    ∃ alg ∈ kex.kexAlgorithms, ∃ algo, tables.kexAlgos.lookup alg = some algo ∧
      (algo.pqc || algo.isHybrid) = true

theorem listsPqc_iff {inputs : List SshInput} {store : SshStore}
    (result : runSsh inputs = some store) (tables : Tables) (host : String) :
    ListsPqc tables inputs host ↔ ∃ caps, store.hostCaps.lookup host = some caps ∧
      kexPqcSupported tables.kexAlgos caps = true := by
  simp only [kexPqcSupported, decide_eq_true_eq]
  constructor
  · rintro ⟨a, b, kex, named, first, alg, listed, known⟩
    obtain ⟨caps, found, among⟩ := (supports_iff result).mpr ⟨a, b, kex, named, first, listed⟩
    exact ⟨caps, found, alg, among, known⟩
  · rintro ⟨caps, found, alg, among, known⟩
    obtain ⟨a, b, kex, named, first, listed⟩ := (supports_iff result).mp ⟨caps, found, among⟩
    exact ⟨a, b, kex, named, first, alg, listed, known⟩

/-- One endpoint of the host has told of a group that the table calls post-quantum or hybrid. -/
def TellsPqc (tables : Tables) (capture : List (Option SlicedPacket)) (host : String) : Prop :=
  ∃ value, ToldFrom capture CryptoConfig.keyshareGroups host value ∧
    ∃ group, tables.groups.lookup value = some group ∧ (group.pqc = true ∨ group.hybrid = true)

theorem tellsPqc_iff {capture : List (Option SlicedPacket)}
    (ipv4 : Ipv4Only capture) {map : HashMap String (Finset UInt16)}
    (filled : Filled (trace capture) CryptoConfig.keyshareGroups map) (tables : Tables)
    (host : String) : TellsPqc tables capture host ↔ HostPqc tables map host := by
  simp only [TellsPqc, HostPqc, Tables.Pqc, toldFrom_iff ipv4 filled]
  constructor
  · rintro ⟨value, ⟨key, values, found, read, among⟩, known⟩
    exact ⟨key, values, found, read, value, among, known⟩
  · rintro ⟨key, values, found, read, value, among, known⟩
    exact ⟨value, ⟨key, values, found, read, among⟩, known⟩

/-- The lists and tables of a report, in terms of the packets of the capture. -/
structure Report.Reflects (tables : Tables) (capture : List (Option SlicedPacket))
    (report : Report) : Prop where
  hosts : ∀ host, host ∈ report.hosts ↔ ∃ ip, ip.display = host ∧
    (SentKexinit capture ip ∨ SentHello capture CryptoConfig.keyshareGroups ip)
  pqcHosts : ∀ host, host ∈ report.pqcHosts ↔
    ListsPqc tables (trace capture) host ∨ TellsPqc tables capture host
  sshHosts : ∀ host, host ∈ report.sshHosts ↔ ∃ ip, ip.display = host ∧ SentKexinit capture ip
  sshLabels : ∀ host ∈ report.sshHosts, report.sshHostsPqc.lookup host = some pqcSupportedText ↔
    ListsPqc tables (trace capture) host
  sshAlgos : ∀ host details, details ∈ report.sshHostsPqcAlgos.members host ↔
    ∃ a b kex, a.1.display = host ∧ firstMessage (trace capture) a b = some kex ∧
      ∃ alg ∈ kex.kexAlgorithms, details ∈ kexDetails tables.kexAlgos alg
  sshSessions : ∀ ip shown, shown ∈ report.sshSessionsResults.members ip ↔
    ∃ client server kex algo, Agreed (trace capture) client server kex ∧
      tables.kexAlgos.lookup kex = some algo ∧ client.1.display = ip ∧
      shown = sshShown client server kex algo
  tlsHosts : ∀ host, host ∈ report.tlsHosts ↔
    ∃ ip, ip.display = host ∧ SentHello capture CryptoConfig.ciphers ip
  tlsCiphers : ∀ host name, name ∈ report.tlsHostsCiphers.members host ↔
    ∃ suite, ToldFrom capture CryptoConfig.ciphers host suite ∧
      cipherName tables.cipherSuites suite = name
  tlsGroups : ∀ host details, details ∈ report.tlsHostCapabilities.members host ↔
    ∃ group, ToldFrom capture CryptoConfig.keyshareGroups host group ∧
      details ∈ groupDetails tables.groups group
  tlsClients : ∀ ip, ip ∈ report.tlsSessionsResults ↔
    ∃ client server, client.1.display = ip ∧ Answered (trace capture) server client
  tlsSessions : ∀ ip shown, shown ∈ report.tlsSessionsResults.members ip ↔
    ∃ client server value group, lastGroup (trace capture) server client = some value ∧
      tables.groups.lookup value = some group ∧ client.1.display = ip ∧
      shown = tlsShown client server group

section Reflects

variable {capture : List (Option SlicedPacket)}

theorem mem_sshSessions_iff (result : runCapture capture = some state) (tables : Tables)
    (ip : String) (shown : SessionResult) :
    (∃ flow session addition, state.ssh.sessions.lookup flow = some session ∧
      sshAddition tables (flow, session) = some (some addition) ∧ addition.host = ip ∧
      shown ∈ addition.results) ↔
    ∃ client server kex algo, Agreed (trace capture) client server kex ∧
      tables.kexAlgos.lookup kex = some algo ∧ client.1.display = ip ∧
      shown = sshShown client server kex algo := by
  have recorded := (stores_of_runCapture result).2
  simp only [agreed_iff recorded]
  constructor
  · rintro ⟨flow, session, addition, found, added, rfl, among⟩
    obtain ⟨a, b, rfl, -⟩ :=
      (consistent_of_run recorded).named flow (Finmap.mem_of_lookup_eq_some found)
    rw [sshAddition_flowOf, Option.some.injEq, Option.map_eq_some_iff] at added
    obtain ⟨⟨kex⟩, negotiated, rfl⟩ := added
    cases known : tables.kexAlgos.lookup kex with
    | none => simp [known] at among
    | some algo =>
      simp only [known, Finset.mem_singleton] at among
      exact ⟨a, b, kex, algo, ⟨session, found, negotiated⟩, known, by simp, among⟩
  · rintro ⟨a, b, kex, algo, ⟨session, found, negotiated⟩, known, rfl, rfl⟩
    refine ⟨flowOf a b, session,
      ⟨a.1.display, {sshShown a b kex algo}, if algo.pqc then 1 else 0⟩, found, ?_, ?_, ?_⟩
    · rw [sshAddition_flowOf, negotiated]
      simp only [Option.map_some, known]
    · rfl
    · simp

theorem mem_tlsSessions_iff (result : runCapture capture = some state) (tables : Tables)
    (ip : String) (shown : SessionResult) :
    (∃ key value, state.tls.tlsSessions.lookup key = some value ∧
      (tlsAddition tables (key, value)).host = ip ∧
      shown ∈ (tlsAddition tables (key, value)).results) ↔
    ∃ client server value group, lastGroup (trace capture) server client = some value ∧
      tables.groups.lookup value = some group ∧ client.1.display = ip ∧
      shown = tlsShown client server group := by
  have answers (server client : Endpoint) := lookup_tlsSessions
    (fun _ membership => (mem_dispatches membership).2) (stores_of_runCapture result).1 server
    client
  simp only [trace, ← answers]
  constructor
  · rintro ⟨⟨srcIp, srcPort, dstIp, dstPort⟩, value, found, rfl, among⟩
    cases known : tables.groups.lookup value with
    | none => simp [tlsAddition, known] at among
    | some group =>
      simp only [tlsAddition, known, Finset.mem_singleton] at among
      exact ⟨(srcIp, srcPort), (dstIp, dstPort), value, group, found, known,
        by simp [tlsAddition, known], among⟩
  · rintro ⟨client, server, value, group, found, known, rfl, rfl⟩
    exact ⟨_, value, found, by simp [tlsAddition, known, sessionKey],
      by simp [tlsAddition, known, sessionKey, tlsShown]⟩

theorem reflects_of_runReport (tables : Tables) (result : runCapture capture = some state)
    (ipv4 : Ipv4Only capture) (visits : orders.Visits state)
    (completes : runReport tables orders = some report) : report.Reflects tables capture := by
  have tabulates := tabulates_of_runReport visits completes
  have describes := describes_of_runReport visits completes
  have told := told_of_runCapture result
  have recorded := (stores_of_runCapture result).2
  have shared (host : String) :=
    exists_key_iff_sentHello result ipv4 isPart_keyshareGroups told.groups host
  constructor
  · intro host
    rw [describes.hosts, mem_hostCaps_iff result, shared, ← exists_or]
    simp only [← and_or_left]
  · intro host
    rw [describes.pqcHosts, listsPqc_iff recorded, tellsPqc_iff ipv4 told.groups]
  · intro host
    rw [describes.sshHosts, mem_hostCaps_iff result]
  · intro host listed
    obtain ⟨caps, found⟩ := Finmap.mem_iff.mp ((describes.sshHosts host).mp listed)
    rw [describes.sshLabels host caps found, Option.some.injEq, pqcSupport_eq_iff,
      listsPqc_iff recorded]
    simp [found]
  · intro host details
    rw [tabulates.sshAlgos]
    have supports (alg : String) := @supports_iff _ _ recorded host alg
    simp only [SshStore.Supports] at supports
    simp only [Finset.mem_biUnion]
    constructor
    · rintro ⟨caps, found, alg, listed, among⟩
      obtain ⟨a, b, kex, named, first, listed⟩ := (supports alg).mp ⟨caps, found, listed⟩
      exact ⟨a, b, kex, named, first, alg, listed, among⟩
    · rintro ⟨a, b, kex, named, first, alg, listed, among⟩
      obtain ⟨caps, found, listed⟩ := (supports alg).mpr ⟨a, b, kex, named, first, listed⟩
      exact ⟨caps, found, alg, listed, among⟩
  · intro ip shown
    rw [tabulates.sshSessions, mem_sshSessions_iff result]
  · intro host
    rw [describes.tlsHosts, exists_key_iff_sentHello result ipv4 isPart_ciphers told.ciphers]
  · intro host name
    rw [tabulates.tlsCiphers]
    simp only [toldFrom_iff ipv4 told.ciphers, Finset.mem_image]
    tauto
  · intro host details
    rw [tabulates.tlsGroups]
    simp only [toldFrom_iff ipv4 told.groups, Finset.mem_biUnion]
    tauto
  · intro ip
    rw [describes.tlsSessions]
    simp only [told.sessions]
    constructor
    · rintro ⟨key, ⟨server, client, answered, rfl⟩, shown⟩
      exact ⟨client, server, shown, answered⟩
    · rintro ⟨client, server, shown, answered⟩
      exact ⟨_, ⟨server, client, answered, rfl⟩, shown⟩
  · intro ip shown
    rw [tabulates.tlsSessions, mem_tlsSessions_iff result]

end Reflects

end PqcUtils.Dump

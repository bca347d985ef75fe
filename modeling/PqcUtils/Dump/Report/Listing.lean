import PqcUtils.Dump.Report.Hosts
import PqcUtils.Dump.Ssh.Negotiation

/-!
# Which hosts are listed and counted

The hosts that are listed for TLS have told of a cipher suite, those that are
counted have told of a group, and the clients of sessions need not have told of
anything. The three agree under conditions on what was sent.
-/

namespace PqcUtils.Dump

open Net Wire

variable {capture : List (Option SlicedPacket)} {state : CaptureState}

/-! ## Hosts and what they sent -/

/-- The payload is a hello with an entry in this part of it. A server hello has one of each. -/
def HelloWith (part : CryptoConfig → List UInt16) (payload : Bytes) : Prop :=
  IsServerHello payload ∨
    IsClientHello payload ∧ ∃ result, parseSslV3ClientHello payload = .ok result ∧ part result ≠ []

/-- A part of a hello that is empty exactly if the hello says nothing of its kind. -/
structure IsPart (part : CryptoConfig → List UInt16) : Prop where
  nothing : part ⟨[], []⟩ = []
  single : ∀ suite group, part ⟨[suite], [group]⟩ ≠ []

theorem isPart_ciphers : IsPart CryptoConfig.ciphers := ⟨rfl, by simp⟩

theorem isPart_keyshareGroups : IsPart CryptoConfig.keyshareGroups := ⟨rfl, by simp⟩

theorem Dispatch.Tells.ne_nil_iff {part : CryptoConfig → List UInt16} (isPart : IsPart part)
    {dispatch : Dispatch} {source destination : Endpoint} {config : CryptoConfig}
    (tells : dispatch.Tells source destination config) :
    part config ≠ [] ↔ HelloWith part dispatch.2 := by
  constructor
  · intro nonempty
    rcases payloadConfig_cases tells.config with client | ⟨suite, group, set, -⟩ | rfl
    · exact .inr ⟨client.1, config, client.2, nonempty⟩
    · exact .inl (serverGroup_cases set).1
    · exact absurd isPart.nothing nonempty
  · rintro (server | ⟨⟨handshake, client⟩, result, parsed, nonempty⟩)
    · obtain ⟨group, set⟩ := server.exists_serverGroup (by simp [tells.config])
      obtain ⟨suite, same⟩ := payloadConfig_of_serverGroup set
      rw [tells.config, Option.some.injEq] at same
      exact same ▸ isPart.single suite group
    · have config := tells.config
      rw [payloadConfig, if_pos handshake, if_pos client, parsed, Option.some.injEq] at config
      rwa [← config]

def SentHello (capture : List (Option SlicedPacket)) (part : CryptoConfig → List UInt16)
    (ip : IpAddr) : Prop :=
  ∃ dispatch ∈ trace capture, ∃ source destination, dispatch.Sent source destination ∧
    source.1 = ip ∧ HelloWith part dispatch.2

theorem exists_key_iff_sentHello (result : runCapture capture = some state)
    (ipv4 : Ipv4Only capture) {part : CryptoConfig → List UInt16} (isPart : IsPart part)
    {map : HashMap String (Finset UInt16)} (filled : Filled (trace capture) part map)
    (host : String) :
    (∃ key ∈ map, printedIp key = some host) ↔
      ∃ ip, ip.display = host ∧ SentHello capture part ip := by
  constructor
  · rintro ⟨key, present, read⟩
    obtain ⟨dispatch, membership, source, destination, config, tells, rfl, nonempty⟩ :=
      (filled.keys key).mp present
    exact ⟨source.1, display_of_printedIp read, dispatch, membership, source, destination,
      tells.sent, rfl, (tells.ne_nil_iff isPart).mp nonempty⟩
  · rintro ⟨ip, rfl, dispatch, membership, ⟨ip', port⟩, destination, sent, rfl, hello⟩
    obtain ⟨config, tells⟩ := exists_tells result membership sent
    obtain ⟨ip, rfl⟩ := sent.ipv4 ipv4 membership
    exact ⟨_, (filled.keys _).mpr ⟨dispatch, membership, _, destination, config, tells, rfl,
      (tells.ne_nil_iff isPart).mpr hello⟩, printedIp_tlsKey ip port⟩

theorem exists_display_iff (P : IpAddr → Prop) (ip : IpAddr) :
    (∃ other, other.display = ip.display ∧ P other) ↔ P ip := by
  constructor
  · rintro ⟨other, same, holds⟩
    rwa [← display_injective same]
  · exact fun holds => ⟨ip, rfl, holds⟩

theorem exists_visits (state : CaptureState) : ∃ orders : Orders, orders.Visits state := by
  obtain ⟨hostCaps, visitsCaps⟩ := HashMap.exists_enumerates state.ssh.hostCaps
  obtain ⟨sshSessions, visitsSsh⟩ := HashMap.exists_enumerates state.ssh.sessions
  obtain ⟨tlsCiphers, visitsCiphers⟩ := HashMap.exists_enumerates state.tls.tlsCiphers
  obtain ⟨groups, visitsGroups⟩ := HashMap.exists_enumerates state.tls.keyshareGroups
  obtain ⟨tlsSessions, visitsTls⟩ := HashMap.exists_enumerates state.tls.tlsSessions
  refine ⟨⟨hostCaps, sshSessions, tlsCiphers, groups,
    tlsCiphers.filterMap fun entry => printedIp entry.1, tlsSessions⟩, visitsCaps, visitsSsh,
    visitsCiphers, visitsGroups, fun host => ?_, visitsTls⟩
  rw [List.mem_filterMap, visitsCiphers.exists_key_iff fun key => printedIp key = some host]

/-! ## Clients of sessions -/

/-- The report is made, and every client of a session in it is listed. -/
def SessionsListed (tables : Tables) (state : CaptureState) : Prop :=
  ∀ orders : Orders, orders.Visits state → ∃ report, runReport tables orders = some report ∧
    ∀ ip ∈ report.tlsSessionsResults, ip ∈ report.tlsHosts

/-- Whoever is sent a server hello has itself sent a hello with a cipher suite. -/
def ClientsHeard (capture : List (Option SlicedPacket)) : Prop :=
  ∀ dispatch ∈ trace capture, ∀ server client, dispatch.Sent server client →
    IsServerHello dispatch.2 → SentHello capture CryptoConfig.ciphers client.1

theorem sessionsListed_iff (tables : Tables) (result : runCapture capture = some state)
    (ipv4 : Ipv4Only capture) : SessionsListed tables state ↔ ClientsHeard capture := by
  have told := told_of_runCapture result
  have listed (host : String) :=
    exists_key_iff_sentHello result ipv4 isPart_ciphers told.ciphers host
  constructor
  · intro sessionsListed dispatch membership server client sent hello
    obtain ⟨orders, visits⟩ := exists_visits state
    obtain ⟨report, completes, shown⟩ := sessionsListed orders visits
    have describes := describes_of_runReport visits completes
    obtain ⟨config, tells⟩ := exists_tells result membership sent
    obtain ⟨group, set⟩ := hello.exists_serverGroup (by simp [tells.config])
    have session : sessionKey server client ∈ state.tls.tlsSessions :=
      (told.sessions _).mpr ⟨server, client, ⟨dispatch, membership, group, sent, set⟩, rfl⟩
    have host := shown _ ((describes.tlsSessions _).mpr ⟨_, session, rfl⟩)
    exact (exists_display_iff _ client.1).mp ((listed _).mp ((describes.tlsHosts _).mp host))
  · intro heard orders visits
    obtain ⟨report, completes⟩ := exists_report_of_ipv4Only result ipv4 tables visits
    have describes := describes_of_runReport visits completes
    refine ⟨report, completes, fun ip counted => ?_⟩
    obtain ⟨key, session, rfl⟩ := (describes.tlsSessions ip).mp counted
    obtain ⟨server, client, ⟨dispatch, membership, group, sent, set⟩, rfl⟩ :=
      (told.sessions key).mp session
    exact (describes.tlsHosts _).mpr ((listed _).mpr ⟨client.1, rfl,
      heard dispatch membership server client sent (serverGroup_cases set).1⟩)

def fromClient : Sender where
  net := .ipv4 ⟨10, 0, 0, 1⟩ ⟨10, 0, 0, 2⟩
  source := tlsClient.1
  destination := tlsServer.1
  sourcePort := tlsClient.2
  destinationPort := tlsServer.2
  addresses _ := rfl

/-- Only the server's direction is captured. -/
def halfCapture : List (Option SlicedPacket) := [some (fromServer.packet 1 (answer.record 3))]

def wholeCapture : List (Option SlicedPacket) :=
  [some (fromClient.packet 1 (smallHello.record 1)), some (fromServer.packet 1 (answer.record 3))]

/-- The client of the counted session is not listed, in whatever order the report is made. -/
theorem session_not_listed :
    Ipv4Only halfCapture ∧ ∃ state, runCapture halfCapture = some state ∧
      (∀ orders report, orders.Visits state → runReport twoGroups orders = some report →
        "10.0.0.1" ∈ report.tlsSessionsResults ∧ "10.0.0.1" ∉ report.tlsHosts) ∧
      ¬SessionsListed twoGroups state := by
  have ipv4 : Ipv4Only halfCapture :=
    ipv4Only_of_forall (List.forall_mem_singleton.mpr ⟨_, _, _, rfl⟩)
  have recorded : (runCapture halfCapture).map (fun state =>
      decide (sessionKey tlsServer tlsClient ∈ state.tls.tlsSessions ∧
        state.tls.tlsCiphers = Finmap.insert "10.0.0.2:443" {0x1301} ∅)) = some true := by
    decide +kernel
  have read : printedIp "10.0.0.2:443" = some "10.0.0.2" := by decide +kernel
  obtain ⟨state, result, maps⟩ := Option.map_eq_some_iff.mp recorded
  obtain ⟨session, ciphers⟩ := of_decide_eq_true maps
  have missing (orders : Orders) (report : Report) (visits : orders.Visits state)
      (completes : runReport twoGroups orders = some report) :
      "10.0.0.1" ∈ report.tlsSessionsResults ∧ "10.0.0.1" ∉ report.tlsHosts := by
    have describes := describes_of_runReport visits completes
    refine ⟨(describes.tlsSessions _).mpr ⟨_, session, by decide⟩, fun listed => ?_⟩
    obtain ⟨key, present, printed⟩ := (describes.tlsHosts _).mp listed
    rw [ciphers, Finmap.mem_insert] at present
    rcases present with rfl | absent
    · rw [read] at printed
      exact absurd printed (by decide)
    · exact Finmap.notMem_empty absent
  refine ⟨ipv4, state, result, missing, fun sessionsListed => ?_⟩
  obtain ⟨orders, visits⟩ := exists_visits state
  obtain ⟨report, completes, shown⟩ := sessionsListed orders visits
  obtain ⟨counted, unlisted⟩ := missing orders report visits completes
  exact unlisted (shown _ counted)

theorem wholeCapture_helloWith {part : CryptoConfig → List UInt16}
    (offered : part ⟨smallHello.cipherSuites, smallHello.groups⟩ ≠ []) :
    ∀ dispatch ∈ trace wholeCapture, HelloWith part dispatch.2 := by
  have payloads : ∀ dispatch ∈ trace wholeCapture,
      dispatch.2 = smallHello.record 1 ∨ dispatch.2 = answer.record 3 := by
    decide +kernel
  intro dispatch membership
  rcases payloads dispatch membership with client | server
  · rw [client]
    have parsed : parseSslV3ClientHello (smallHello.record 1) =
        .ok ⟨smallHello.cipherSuites, smallHello.groups⟩ := by
      decide +kernel
    exact .inr ⟨⟨by decide, rfl⟩, _, parsed, offered⟩
  · rw [server]
    have upTo := answer.upTo_record 3 []
    rw [List.append_nil] at upTo
    exact .inl ⟨by decide, rfl, _, _, _, upTo⟩

theorem sentHello_wholeCapture {part : CryptoConfig → List UInt16}
    (offered : part ⟨smallHello.cipherSuites, smallHello.groups⟩ ≠ []) (ip : IpAddr) :
    SentHello wholeCapture part ip ↔ ∃ dispatch ∈ trace wholeCapture, ∃ source destination,
      dispatch.Sent source destination ∧ source.1 = ip := by
  constructor
  · rintro ⟨dispatch, membership, source, destination, sent, same, -⟩
    exact ⟨dispatch, membership, source, destination, sent, same⟩
  · rintro ⟨dispatch, membership, source, destination, sent, same⟩
    exact ⟨dispatch, membership, source, destination, sent, same,
      wholeCapture_helloWith offered dispatch membership⟩

theorem ipv4Only_wholeCapture : Ipv4Only wholeCapture :=
  ipv4Only_of_forall (List.forall_mem_cons.mpr ⟨⟨_, _, _, rfl⟩,
    List.forall_mem_singleton.mpr ⟨_, _, _, rfl⟩⟩)

theorem sessions_listed_wholeCapture :
    ∃ state, runCapture wholeCapture = some state ∧ SessionsListed twoGroups state := by
  have completes : (runCapture wholeCapture).isSome := by decide +kernel
  have directions : ∀ dispatch ∈ trace wholeCapture,
      dispatch.2 = smallHello.record 1 ∨
        dispatch.1.endpoints = some (tlsServer, tlsClient) := by
    decide +kernel
  have first : (fromClient.packet 1 (smallHello.record 1), smallHello.record 1) ∈
      trace wholeCapture := by
    decide +kernel
  obtain ⟨state, result⟩ := Option.isSome_iff_exists.mp completes
  refine ⟨state, result, (sessionsListed_iff twoGroups result ipv4Only_wholeCapture).mpr ?_⟩
  intro dispatch membership server client sent hello
  have address : client.1 = tlsClient.1 := by
    rcases directions dispatch membership with payload | endpoints
    · rw [payload] at hello
      exact absurd hello.server (by decide)
    · obtain ⟨-, rfl⟩ := Prod.mk.inj (Option.some.inj (sent.endpoints.symm.trans endpoints))
      rfl
  rw [address]
  exact (sentHello_wholeCapture (by decide) _).mpr
    ⟨_, first, tlsClient, tlsServer, ⟨rfl, by decide⟩, rfl⟩

/-! ## The total of all hosts -/

/-- The report is made, its total is that of the listed hosts, and it covers the post-quantum
ones. -/
def HostsCounted (tables : Tables) (state : CaptureState) : Prop :=
  ∀ orders : Orders, orders.Visits state → ∃ report, runReport tables orders = some report ∧
    report.hosts = report.sshHosts ∪ report.tlsHosts ∧ report.pqcHosts ⊆ report.hosts

def SentKexinit (capture : List (Option SlicedPacket)) (ip : IpAddr) : Prop :=
  ∃ dispatch ∈ trace capture, ∃ source destination kex, Accepted dispatch source destination kex ∧
    source.1 = ip

/-- A host without a key exchange message sends a cipher suite exactly if it sends a group. -/
def SuitesWithGroups (capture : List (Option SlicedPacket)) : Prop :=
  ∀ ip, ¬SentKexinit capture ip → (SentHello capture CryptoConfig.ciphers ip ↔
    SentHello capture CryptoConfig.keyshareGroups ip)

theorem mem_hostCaps_iff (result : runCapture capture = some state) (host : String) :
    host ∈ state.ssh.hostCaps ↔ ∃ ip, ip.display = host ∧ SentKexinit capture ip := by
  have remembers := remembers_of_run (stores_of_runCapture result).2
  rw [remembers.consistent.capable.hosts]
  constructor
  · rintro ⟨kex, offered⟩
    obtain ⟨input, membership, a, b, accepted, same⟩ := remembers.exists_accepted offered
    exact ⟨a.1, same, input, membership, a, b, kex, accepted, rfl⟩
  · rintro ⟨ip, rfl, input, membership, a, b, kex, accepted, rfl⟩
    exact remembers.exists_offer membership accepted

theorem hostsCounted_iff (tables : Tables) (result : runCapture capture = some state)
    (ipv4 : Ipv4Only capture) : HostsCounted tables state ↔ SuitesWithGroups capture := by
  have told := told_of_runCapture result
  have listed (host : String) :=
    exists_key_iff_sentHello result ipv4 isPart_ciphers told.ciphers host
  have shared (host : String) :=
    exists_key_iff_sentHello result ipv4 isPart_keyshareGroups told.groups host
  have spoke (host : String) := mem_hostCaps_iff result host
  constructor
  · intro counted ip silent
    obtain ⟨orders, visits⟩ := exists_visits state
    obtain ⟨report, completes, total, -⟩ := counted orders visits
    have describes := describes_of_runReport visits completes
    have same := Finset.ext_iff.mp total ip.display
    rw [Finset.mem_union, describes.hosts, describes.sshHosts, describes.tlsHosts, spoke, listed,
      shared, exists_display_iff, exists_display_iff, exists_display_iff] at same
    simpa [silent] using same.symm
  · intro paired orders visits
    obtain ⟨report, completes⟩ := exists_report_of_ipv4Only result ipv4 tables visits
    have describes := describes_of_runReport visits completes
    refine ⟨report, completes, Finset.ext fun host => ?_, fun host pqc => ?_⟩
    · rw [Finset.mem_union, describes.hosts, describes.sshHosts, describes.tlsHosts]
      by_cases present : host ∈ state.ssh.hostCaps
      · simp [present]
      · have silent (ip : IpAddr) (same : ip.display = host) : ¬SentKexinit capture ip :=
          fun sent => present ((spoke host).mpr ⟨ip, same, sent⟩)
        rw [listed, shared]
        apply or_congr_right
        constructor
        · rintro ⟨ip, same, sent⟩
          exact ⟨ip, same, (paired ip (silent ip same)).mpr sent⟩
        · rintro ⟨ip, same, sent⟩
          exact ⟨ip, same, (paired ip (silent ip same)).mp sent⟩
    · rw [describes.hosts]
      rcases (describes.pqcHosts host).mp pqc with ⟨caps, found, -⟩ | ⟨key, values, found, read, -⟩
      · exact .inl (Finmap.mem_of_lookup_eq_some found)
      · exact .inr ⟨key, Finmap.mem_of_lookup_eq_some found, read⟩

def plainCapture : List (Option SlicedPacket) := [some (fromClient.packet 1 (plainHello.record 1))]

/-- The client is listed and not counted, in whatever order the report is made. -/
theorem host_not_counted :
    Ipv4Only plainCapture ∧ ∃ state, runCapture plainCapture = some state ∧
      (∀ orders report, orders.Visits state → runReport twoGroups orders = some report →
        "10.0.0.1" ∈ report.tlsHosts ∧ "10.0.0.1" ∉ report.hosts) ∧
      ¬HostsCounted twoGroups state := by
  have ipv4 : Ipv4Only plainCapture :=
    ipv4Only_of_forall (List.forall_mem_singleton.mpr ⟨_, _, _, rfl⟩)
  have recorded : (runCapture plainCapture).map (fun state =>
      decide ("10.0.0.1:50000" ∈ state.tls.tlsCiphers ∧ state.tls.keyshareGroups = ∅ ∧
        state.ssh.hostCaps = ∅)) = some true := by
    decide +kernel
  have read : printedIp "10.0.0.1:50000" = some "10.0.0.1" := by decide +kernel
  obtain ⟨state, result, maps⟩ := Option.map_eq_some_iff.mp recorded
  obtain ⟨present, groups, hostCaps⟩ := of_decide_eq_true maps
  have missing (orders : Orders) (report : Report) (visits : orders.Visits state)
      (completes : runReport twoGroups orders = some report) :
      "10.0.0.1" ∈ report.tlsHosts ∧ "10.0.0.1" ∉ report.hosts := by
    have describes := describes_of_runReport visits completes
    refine ⟨(describes.tlsHosts _).mpr ⟨_, present, read⟩, ?_⟩
    rw [describes.hosts, hostCaps, groups]
    simp [Finmap.notMem_empty]
  refine ⟨ipv4, state, result, missing, fun counted => ?_⟩
  obtain ⟨orders, visits⟩ := exists_visits state
  obtain ⟨report, completes, total, -⟩ := counted orders visits
  obtain ⟨listed, uncounted⟩ := missing orders report visits completes
  rw [total] at uncounted
  exact uncounted (Finset.mem_union_right _ listed)

theorem hosts_counted_wholeCapture :
    ∃ state, runCapture wholeCapture = some state ∧ HostsCounted twoGroups state := by
  have completes : (runCapture wholeCapture).isSome := by decide +kernel
  obtain ⟨state, result⟩ := Option.isSome_iff_exists.mp completes
  refine ⟨state, result, (hostsCounted_iff twoGroups result ipv4Only_wholeCapture).mpr ?_⟩
  intro ip _
  rw [sentHello_wholeCapture (by decide),
    sentHello_wholeCapture (by decide)]

/-! ## Both protocols in one capture -/

def hybridHello : ClientHello :=
  { smallHello with extensions := [.keyShare [⟨0x11ec, [9]⟩]], fits_extensions := by decide }

def hybridAnswer : ServerHello := smallServerHello (Bytes.Tagged.encode ⟨0x11ec, [9]⟩) (by decide)

/-- Two sides of an SSH connection, a client that offers groups from two ports, and an answer to
the second of them. -/
def busyCapture : List (Option SlicedPacket) :=
  [some clientMessage.1, some serverMessage.1,
    some (fromClient.packet 1 (smallHello.record 1)),
    some ({ fromClient with sourcePort := 50001 }.packet 1 (hybridHello.record 1)),
    some ({ fromServer with destinationPort := 50001 }.packet 1 (hybridAnswer.record 3))]

/-- A post-quantum name, a hybrid group, a classical one and a cipher suite. -/
def busyTables : Tables where
  kexAlgos := Finmap.insert "a" ⟨true, none, none, none⟩ ∅
  groups := twoGroups.groups
  cipherSuites := Finmap.insert 0x1301 ⟨"TLS_AES_128_GCM_SHA256"⟩ ∅

theorem ipv4Only_busyCapture : Ipv4Only busyCapture := by
  refine ipv4Only_of_forall ?_
  simp only [busyCapture, List.forall_mem_cons]
  exact ⟨⟨_, _, _, rfl⟩, ⟨_, _, _, rfl⟩, ⟨_, _, _, rfl⟩, ⟨_, _, _, rfl⟩, ⟨_, _, _, rfl⟩, by simp⟩

end PqcUtils.Dump

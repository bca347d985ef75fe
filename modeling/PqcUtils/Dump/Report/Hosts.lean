import PqcUtils.Dump.Keys
import PqcUtils.Dump.Provenance
import PqcUtils.Dump.Report.Loops
import PqcUtils.Dump.Ssh.Hosts

/-!
# Hosts in the report

A host is listed for the cipher suites that its hellos told of, and counted for
the groups. The report names a host by its address, which is read back from the
keys of the maps.
-/

namespace PqcUtils.Dump

open Net Wire

variable {capture : List (Option SlicedPacket)} {state : CaptureState} {tables : Tables}
  {orders : Orders} {report : Report}

/-! ## Addresses in keys -/

def Ipv4Only (capture : List (Option SlicedPacket)) : Prop :=
  ∀ packet source destination, some packet ∈ capture → packet.net ≠ some (.ipv6 source destination)

theorem ipv4Only_of_forall (ipv4 : ∀ sliced ∈ capture, ∃ source destination transport,
    sliced = some ⟨some (.ipv4 source destination), transport⟩) : Ipv4Only capture := by
  intro packet source destination membership
  obtain ⟨source', destination', transport, same⟩ := ipv4 _ membership
  cases same
  nofun

theorem printedIp_tlsKey (ip : Ipv4Addr) (port : UInt16) :
    printedIp (tlsKey (.v4 ip) port) = some (IpAddr.v4 ip).display := by
  obtain ⟨address, read, same, -⟩ := readsBack_tlsKey_v4 ip port
  simp only at read same
  simp [printedIp, read, same]

/-- If anything is read back from a key, it is the address of the sender. -/
theorem display_of_printedIp {endpoint : Endpoint} {host : String}
    (read : printedIp (tlsKey endpoint.1 endpoint.2) = some host) :
    endpoint.1.display = host := by
  obtain ⟨ip | ip, port⟩ := endpoint
  · rw [printedIp_tlsKey, Option.some.injEq] at read
    exact read
  · rw [printedIp, tlsKey, parse_v6_bare] at read
    cases read

theorem Dispatch.Sent.ipv4 {dispatch : Dispatch} {source destination : Endpoint}
    (sent : dispatch.Sent source destination) (ipv4 : Ipv4Only capture)
    (membership : dispatch ∈ trace capture) : ∃ ip, source.1 = .v4 ip := by
  obtain ⟨tcp, -, addresses, -⟩ := exists_carried sent.endpoints
  have inCapture := (mem_dispatches membership).1
  unfold SlicedPacket.addresses at addresses
  split at addresses
  · obtain ⟨same, -⟩ := Prod.mk.inj (Option.some.inj addresses)
    exact ⟨_, same.symm⟩
  · next found => exact absurd found (ipv4 _ _ _ inCapture)
  · cases addresses

theorem exists_report_of_ipv4Only (result : runCapture capture = some state)
    (ipv4 : Ipv4Only capture) (tables : Tables) (visits : orders.Visits state) :
    ∃ report, runReport tables orders = some report := by
  have told := told_of_runCapture result
  have readable {part : CryptoConfig → List UInt16} {map : HashMap String (Finset UInt16)}
      (filled : Filled (trace capture) part map) {key : String} (present : key ∈ map) :
      ∃ ip, printedIp key = some ip := by
    obtain ⟨dispatch, membership, ⟨_, port⟩, _, _, tells, rfl, -⟩ := (filled.keys key).mp present
    obtain ⟨ip, rfl⟩ := tells.sent.ipv4 ipv4 membership
    exact ⟨_, printedIp_tlsKey ip port⟩
  apply exists_report tables visits
  · rintro key (present | present)
    · exact readable told.ciphers present
    · exact readable told.groups present
  · intro flow present
    obtain ⟨inputs, invariant, -⟩ := storeInvariant_of_runCapture result
    obtain ⟨a, b, rfl, -⟩ := invariant.named flow present
    obtain ⟨source, src, -⟩ := parse_key a
    obtain ⟨destination, dst, -⟩ := parse_key b
    exact ⟨source, destination, src, dst⟩

/-! ## Hosts without a key share -/

def CarriesShare (payload : Bytes) (group : UInt16) : Prop :=
  IsClientHello payload ∧ Offers payload group ∨ IsServerHello payload ∧ Answers payload group

def ShareSent (capture : List (Option SlicedPacket)) (key : String) (group : UInt16) : Prop :=
  ∃ dispatch ∈ trace capture, ∃ source destination, dispatch.Sent source destination ∧
    tlsKey source.1 source.2 = key ∧ CarriesShare dispatch.2 group

/-- Every recorded group was sent by the endpoint it is recorded for. -/
def GroupsSent (capture : List (Option SlicedPacket)) (state : CaptureState) : Prop :=
  ∀ key group, group ∈ valuesAt state.tls.keyshareGroups key → ShareSent capture key group

def NoShareFrom (capture : List (Option SlicedPacket)) (host : String) : Prop :=
  ∀ dispatch ∈ trace capture, ∀ source destination, dispatch.Sent source destination →
    source.1.display = host → ∀ group, ¬CarriesShare dispatch.2 group

/-- A listed host without a key share is labelled with the older version. -/
def OlderLabelled (capture : List (Option SlicedPacket)) (state : CaptureState) : Prop :=
  ∀ tables orders report, orders.Visits state → runReport tables orders = some report →
    ∀ host ∈ report.tlsHosts, NoShareFrom capture host →
      report.tlsHostsPqc.lookup host = some "TLS 1.2"

/-- An endpoint that sends a server hello which chooses no group has also sent a key share for the
group zero. -/
def ZeroSent (capture : List (Option SlicedPacket)) : Prop :=
  ∀ dispatch ∈ trace capture, ∀ source destination, dispatch.Sent source destination →
    IsServerHello dispatch.2 → (∀ group, ¬Chooses dispatch.2 group) →
      ShareSent capture (tlsKey source.1 source.2) 0

/-- What a dispatch tells of a group: the group is in the hello, or it is zero. -/
theorem Dispatch.Tells.group_cases {dispatch : Dispatch} {source destination : Endpoint}
    {config : CryptoConfig} (tells : dispatch.Tells source destination config) {group : UInt16}
    (told : group ∈ config.keyshareGroups) : CarriesShare dispatch.2 group ∨
      IsServerHello dispatch.2 ∧ (∀ other, ¬Chooses dispatch.2 other) ∧ group = 0 := by
  rcases payloadConfig_cases tells.config with ⟨client, parsed⟩ | ⟨suite, set, found, rfl⟩ | rfl
  · exact .inl (.inl ⟨client, offers_of_parsed parsed group told⟩)
  · cases List.mem_singleton.mp told
    obtain ⟨hello, chooses | none⟩ := serverGroup_cases found
    · exact .inl (.inr ⟨hello, chooses.answers⟩)
    · exact .inr ⟨hello, none⟩
  · simp at told

theorem zero_of_not_chooses (result : runCapture capture = some state) {dispatch : Dispatch}
    (membership : dispatch ∈ trace capture) {source destination : Endpoint}
    (sent : dispatch.Sent source destination) (hello : IsServerHello dispatch.2)
    (none : ∀ group, ¬Chooses dispatch.2 group) :
    0 ∈ valuesAt state.tls.keyshareGroups (tlsKey source.1 source.2) := by
  obtain ⟨config, tells⟩ := exists_tells result membership sent
  obtain ⟨group, set⟩ := hello.exists_serverGroup (by simp [tells.config])
  obtain ⟨-, chooses | ⟨-, rfl⟩⟩ := serverGroup_cases set
  · exact absurd chooses (none group)
  · obtain ⟨suite, same⟩ := payloadConfig_of_serverGroup set
    exact ((told_of_runCapture result).groups.values _ _).mpr
      ⟨dispatch, membership, source, destination, _, ⟨sent, same⟩, rfl, by simp⟩

theorem groupsSent_iff (result : runCapture capture = some state) :
    GroupsSent capture state ↔ ZeroSent capture := by
  constructor
  · intro groupsSent dispatch membership source destination sent hello none
    exact groupsSent _ _ (zero_of_not_chooses result membership sent hello none)
  · intro zeroSent key group recorded
    obtain ⟨dispatch, membership, source, destination, config, tells, rfl, told⟩ :=
      ((told_of_runCapture result).groups.values key group).mp recorded
    rcases tells.group_cases told with carries | ⟨hello, none, rfl⟩
    · exact ⟨dispatch, membership, source, destination, tells.sent, rfl, carries⟩
    · exact zeroSent dispatch membership source destination tells.sent hello none

theorem GroupsSent.olderLabelled (result : runCapture capture = some state)
    (groupsSent : GroupsSent capture state) : OlderLabelled capture state := by
  intro tables orders report visits completes host listed noShare
  apply (describes_of_runReport visits completes).tlsLabels host listed
  intro key present read
  obtain ⟨dispatch, membership, source, destination, config, tells, rfl, nonempty⟩ :=
    ((told_of_runCapture result).groups.keys key).mp present
  obtain ⟨group, told⟩ := List.exists_mem_of_ne_nil _ nonempty
  have recorded := ((told_of_runCapture result).groups.values _ group).mpr
    ⟨dispatch, membership, source, destination, config, tells, rfl, told⟩
  obtain ⟨other, otherMembership, source', destination', sent, same, carries⟩ :=
    groupsSent _ group recorded
  rw [← same] at read
  exact noShare other otherMembership source' destination' sent (display_of_printedIp read) group
    carries

/-- The recorded groups come from the wire, and hosts without one are set apart, exactly when no
server hello leaves the choice of a group open. -/
theorem groups_from_wire_iff (result : runCapture capture = some state) :
    (GroupsSent capture state ∧ OlderLabelled capture state) ↔ ZeroSent capture := by
  rw [← groupsSent_iff result]
  exact ⟨And.left, fun groupsSent => ⟨groupsSent, groupsSent.olderLabelled result⟩⟩

def olderCapture : List (Option SlicedPacket) :=
  [some (fromServer.packet 1 (plainServerHello.record 3))]

def olderOrders : Orders where
  hostCaps := []
  sshSessions := []
  tlsCiphers := [("10.0.0.2:443", {0x1301})]
  keyshareGroups := [("10.0.0.2:443", {0})]
  tlsHosts := ["10.0.0.2"]
  tlsSessions := [(sessionKey tlsServer tlsClient, 0)]

theorem noShareFrom_older : NoShareFrom olderCapture "10.0.0.2" := by
  have payloads : ∀ dispatch ∈ trace olderCapture,
      dispatch.2 = plainServerHello.record 3 := by
    decide +kernel
  intro dispatch membership source destination sent same group carries
  rw [CarriesShare, payloads dispatch membership] at carries
  rcases carries with ⟨client, -⟩ | ⟨-, answers⟩
  · exact absurd client.2 (by decide)
  · exact not_answers_plainServerHello 3 group answers

/-- Its hello carries no key share, and it is labelled as if it had offered one that is not
post-quantum. -/
theorem older_host_mislabelled :
    NoShareFrom olderCapture "10.0.0.2" ∧
    ∃ state report, runCapture olderCapture = some state ∧ olderOrders.Visits state ∧
      runReport twoGroups olderOrders = some report ∧
      0 ∈ valuesAt state.tls.keyshareGroups "10.0.0.2:443" ∧ "10.0.0.2" ∈ report.tlsHosts ∧
      report.tlsHostsPqc.lookup "10.0.0.2" = some "No Support" ∧
      ¬GroupsSent olderCapture state ∧ ¬OlderLabelled olderCapture state := by
  have recorded : (runCapture olderCapture).map (fun state => decide (state.ssh.hostCaps = ∅ ∧
      state.ssh.sessions = ∅ ∧ state.tls.tlsCiphers = Finmap.insert "10.0.0.2:443" {0x1301} ∅ ∧
      state.tls.keyshareGroups = Finmap.insert "10.0.0.2:443" {0} ∅ ∧
      state.tls.tlsSessions = Finmap.insert (sessionKey tlsServer tlsClient) 0 ∅)) =
        some true := by
    decide +kernel
  have reported : (runReport twoGroups olderOrders).map (fun report =>
      decide ("10.0.0.2" ∈ report.tlsHosts ∧
        report.tlsHostsPqc.lookup "10.0.0.2" = some "No Support")) = some true := by
    decide +kernel
  obtain ⟨state, result, maps⟩ := Option.map_eq_some_iff.mp recorded
  obtain ⟨hostCaps, sshSessions, tlsCiphers, groups, tlsSessions⟩ := of_decide_eq_true maps
  obtain ⟨report, completes, labels⟩ := Option.map_eq_some_iff.mp reported
  obtain ⟨listed, label⟩ := of_decide_eq_true labels
  have read : printedIp "10.0.0.2:443" = some "10.0.0.2" := by decide +kernel
  have single {Key Value : Type} [DecidableEq Key] (key : Key) (value : Value) :
      HashMap.Enumerates [(key, value)] (Finmap.insert key value ∅) :=
    HashMap.enumerates_empty.insert key value Finmap.notMem_empty
  have visits : olderOrders.Visits state := by
    refine ⟨?_, ?_, tlsCiphers ▸ single _ _, groups ▸ single _ _, fun host => ?_,
      tlsSessions ▸ single _ _⟩
    · exact hostCaps ▸ HashMap.enumerates_empty
    · exact sshSessions ▸ HashMap.enumerates_empty
    · rw [tlsCiphers]
      simp [olderOrders, Finmap.notMem_empty, read, eq_comm]
  have zero : 0 ∈ valuesAt state.tls.keyshareGroups "10.0.0.2:443" := by
    rw [groups, valuesAt, Finmap.lookup_insert]
    simp
  refine ⟨noShareFrom_older, state, report, result, visits, completes, zero, listed, label, ?_, ?_⟩
  · intro groupsSent
    obtain ⟨dispatch, membership, source, destination, sent, same, carries⟩ :=
      groupsSent _ _ zero
    rw [← same] at read
    exact noShareFrom_older dispatch membership source destination sent (display_of_printedIp read)
      0 carries
  · intro labelled
    have older := labelled twoGroups olderOrders report visits completes "10.0.0.2" listed
      noShareFrom_older
    rw [label] at older
    exact absurd older (by decide)

theorem answer_groups_sent : ∃ state,
    runCapture [some (fromServer.packet 1 (answer.record 3))] = some state ∧
      GroupsSent [some (fromServer.packet 1 (answer.record 3))] state ∧
      OlderLabelled [some (fromServer.packet 1 (answer.record 3))] state := by
  have completes : (runCapture [some (fromServer.packet 1 (answer.record 3))]).isSome := by
    decide +kernel
  have payloads : ∀ dispatch ∈ trace [some (fromServer.packet 1 (answer.record 3))],
      dispatch.2 = answer.record 3 := by
    decide +kernel
  obtain ⟨state, result⟩ := Option.isSome_iff_exists.mp completes
  refine ⟨state, result, (groups_from_wire_iff result).mpr ?_⟩
  intro dispatch membership source destination sent hello none
  rw [payloads dispatch membership] at none
  exact absurd (chooses_answer 3) (none _)

end PqcUtils.Dump

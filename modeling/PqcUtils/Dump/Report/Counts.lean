import PqcUtils.Dump.Report.Listing

/-!
# Sessions that are counted as post-quantum

The name an SSH session has agreed on is among the names of both its hosts, and
the group of a TLS session is among the groups of its server. So a session is not
counted without its hosts.
-/

namespace PqcUtils.Dump

open Net

variable {capture : List (Option SlicedPacket)} {state : CaptureState} {tables : Tables}
  {orders : Orders} {report : Report}

structure Report.ShowsPqc (report : Report) (host : String) : Prop where
  counted : host ∈ report.pqcHosts
  labelled : report.sshHostsPqc.lookup host = some pqcSupportedText

structure Report.CountsWithHosts (tables : Tables) (state : CaptureState) (report : Report) :
    Prop where
  ssh : ∀ flow session, state.ssh.sessions.lookup flow = some session →
    countedSsh tables (flow, session) = true →
      ∃ source destination, flow.sourceIp = some source ∧ flow.destinationIp = some destination ∧
        report.ShowsPqc source ∧ report.ShowsPqc destination
  tls : ∀ key group, state.tls.tlsSessions.lookup key = some group →
    countedTls tables (key, group) = true → key.dstIp.display ∈ report.pqcHosts
  sshCount : report.sshPqcSupportedCount ≤ state.ssh.sessions.keys.card
  tlsCount : report.tlsPqcSupportedCount ≤ state.tls.tlsSessions.keys.card

/-! ## SSH sessions -/

theorem countedSsh_iff {flow : FlowKey} {session : SshSession} :
    countedSsh tables (flow, session) = true ↔ ∃ kex algo, session.negotiated = some ⟨kex⟩ ∧
      tables.kexAlgos.lookup kex = some algo ∧ algo.pqc = true := by
  unfold countedSsh
  cases session.negotiated with
  | none => simp
  | some neg =>
    obtain ⟨kex⟩ := neg
    cases known : tables.kexAlgos.lookup kex <;> simp [known]

theorem Report.Describes.showsPqc (describes : report.Describes tables state)
    (capable : Capable state.ssh.sessions state.ssh.hostCaps) {host kex : String} {list : KexInit}
    (offer : Offer state.ssh.sessions host list) (offered : kex ∈ list.kexAlgorithms)
    {algo : KexAlgo} (known : tables.kexAlgos.lookup kex = some algo) (pqc : algo.pqc = true) :
    report.ShowsPqc host := by
  obtain ⟨caps, found⟩ := Finmap.mem_iff.mp ((capable.hosts host).mpr ⟨list, offer⟩)
  have supported : kex ∈ caps.supportedKex := by
    have names := Set.ext_iff.mp (capable.names host caps found) kex
    exact names.mpr ⟨list, offer, offered⟩
  have verdict : kexPqcSupported tables.kexAlgos caps = true :=
    decide_eq_true ⟨kex, supported, algo, known, by simp [pqc]⟩
  refine ⟨(describes.pqcHosts host).mpr (.inl ⟨caps, found, verdict⟩), ?_⟩
  rw [describes.sshLabels host caps found, verdict]
  rfl

theorem showsPqc_of_countedSsh (result : runCapture capture = some state)
    (describes : report.Describes tables state) {flow : FlowKey} {session : SshSession}
    (found : state.ssh.sessions.lookup flow = some session)
    (counted : countedSsh tables (flow, session) = true) :
    ∃ source destination, flow.sourceIp = some source ∧ flow.destinationIp = some destination ∧
      report.ShowsPqc source ∧ report.ShowsPqc destination := by
  have consistent := (remembers_of_run (stores_of_runCapture result).2).consistent
  obtain ⟨a, b, rfl, -⟩ := consistent.named flow (Finmap.mem_of_lookup_eq_some found)
  obtain ⟨kex, algo, negotiated, known, pqc⟩ := countedSsh_iff.mp counted
  obtain ⟨client, server, sent, answered, agreed⟩ :=
    ((consistent.sound _ session found).negotiated_iff kex).mp negotiated
  have sourceIp : (flowOf a b).sourceIp = some a.1.display := printedIp_key a
  have destinationIp : (flowOf a b).destinationIp = some b.1.display := printedIp_key b
  have common : kex ∈ server.kexAlgorithms := by simpa using List.find?_some agreed
  exact ⟨a.1.display, b.1.display, sourceIp, destinationIp,
    describes.showsPqc consistent.capable ⟨_, session, found, .inl ⟨sourceIp, sent⟩⟩
      (List.mem_of_find?_eq_some agreed) known pqc,
    describes.showsPqc consistent.capable ⟨_, session, found, .inr ⟨destinationIp, answered⟩⟩
      common known pqc⟩

/-! ## TLS sessions -/

theorem mem_pqcHosts_of_countedTls (result : runCapture capture = some state)
    (ipv4 : Ipv4Only capture) (describes : report.Describes tables state) {key : TlsSessionKey}
    {group : UInt16} (found : state.tls.tlsSessions.lookup key = some group)
    (counted : countedTls tables (key, group) = true) : key.dstIp.display ∈ report.pqcHosts := by
  have told := told_of_runCapture result
  obtain ⟨⟨ip, port⟩, client, ⟨dispatch, membership, -, sent, -⟩, rfl⟩ :=
    (told.sessions key).mp (Finmap.mem_of_lookup_eq_some found)
  obtain ⟨ip, rfl⟩ := sent.ipv4 ipv4 membership
  obtain ⟨values, recorded, among⟩ :=
    exists_lookup_of_mem_valuesAt (told.chosen _ _ group found)
  have pqc : tables.Pqc (tlsKey (.v4 ip) port, values) := by
    unfold countedTls at counted
    cases known : tables.groups.lookup group with
    | none => simp [known] at counted
    | some details =>
      have marked : details.hybrid = true ∨ details.pqc = true := by simpa [known] using counted
      exact ⟨group, among, details, known, marked.symm⟩
  exact (describes.pqcHosts _).mpr
    (.inr ⟨_, values, recorded, printedIp_tlsKey ip port, pqc⟩)

/-- Every session counted as post-quantum has its hosts among the post-quantum hosts. -/
theorem counts_with_hosts (tables : Tables) (result : runCapture capture = some state)
    (ipv4 : Ipv4Only capture) (visits : orders.Visits state) :
    ∃ report, runReport tables orders = some report ∧ report.Counts tables orders ∧
      report.CountsWithHosts tables state := by
  obtain ⟨report, completes⟩ := exists_report_of_ipv4Only result ipv4 tables visits
  have describes := describes_of_runReport visits completes
  have counts := counts_of_runReport completes
  refine ⟨report, completes, counts, ?_, ?_, ?_, ?_⟩
  · exact fun flow session found => showsPqc_of_countedSsh result describes found
  · exact fun key group found => mem_pqcHosts_of_countedTls result ipv4 describes found
  · rw [counts.ssh, ← visits.sshSessions.length_eq]
    exact List.countP_le_length
  · rw [counts.tls, ← visits.tlsSessions.length_eq]
    exact List.countP_le_length

theorem counts_with_hosts_busyCapture :
    ∃ state orders report, runCapture busyCapture = some state ∧ orders.Visits state ∧
      runReport busyTables orders = some report ∧ report.CountsWithHosts busyTables state ∧
      report.sshPqcSupportedCount = 1 ∧ report.tlsPqcSupportedCount = 1 := by
  have recorded : (runCapture busyCapture).map (fun state =>
      decide (state.ssh.sessions = Finmap.insert (flowOf (localhost 50000) (localhost 22))
          ⟨some ⟨["a", "b"]⟩, some ⟨["b", "a"]⟩, some ⟨"a"⟩⟩ ∅ ∧
        state.tls.tlsSessions = Finmap.insert
          (sessionKey tlsServer (tlsClient.1, 50001)) 0x11ec ∅)) = some true := by
    decide +kernel
  obtain ⟨state, result, maps⟩ := Option.map_eq_some_iff.mp recorded
  obtain ⟨sshSessions, tlsSessions⟩ := of_decide_eq_true maps
  obtain ⟨orders, visits⟩ := exists_visits state
  obtain ⟨report, made, counts, covered⟩ :=
    counts_with_hosts busyTables result ipv4Only_busyCapture visits
  have ssh := visits.sshSessions
  have tls := visits.tlsSessions
  rw [sshSessions] at ssh
  rw [tlsSessions] at tls
  have single {Key Value : Type} [DecidableEq Key] (key : Key) (value : Value) :
      HashMap.Enumerates [(key, value)] (Finmap.insert key value ∅) :=
    HashMap.enumerates_empty.insert key value Finmap.notMem_empty
  refine ⟨state, orders, report, result, visits, made, covered, ?_, ?_⟩
  · rw [counts.ssh, (ssh.perm_of_same (single _ _)).countP_eq]
    decide +kernel
  · rw [counts.tls, (tls.perm_of_same (single _ _)).countP_eq]
    decide +kernel

end PqcUtils.Dump

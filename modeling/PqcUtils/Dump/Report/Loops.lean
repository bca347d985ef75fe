import PqcUtils.Dump.Recording
import PqcUtils.Dump.Verdicts

/-!
# What the loops of the report leave behind

Each loop changes some fields of the report and leaves the others alone. What all
of them leave behind is described by the orders in which they visit their maps.
-/

namespace PqcUtils.Dump

open Net

variable {tables : Tables} {first last : Report}

/-! ## SSH hosts and sessions -/

section HostCaps

variable {order : List (String × HostCapabilities)}

theorem hostCaps_frame (result : Runs.run (hostCapsStep tables) first order = some last) :
    last = { first with
      hosts := last.hosts, pqcHosts := last.pqcHosts, sshHosts := last.sshHosts
      sshHostsPqc := last.sshHostsPqc, sshHostsPqcAlgos := last.sshHostsPqcAlgos } := by
  apply Runs.invariant_of_run (fun report => report = { first with
    hosts := report.hosts, pqcHosts := report.pqcHosts, sshHosts := report.sshHosts
    sshHostsPqc := report.sshHostsPqc, sshHostsPqcAlgos := report.sshHostsPqcAlgos }) _ rfl result
  rintro before entry after same ⟨⟩
  rw [same]

theorem sshHosts_of_run (result : Runs.run (hostCapsStep tables) first order = some last)
    (host : String) :
    host ∈ last.sshHosts ↔ host ∈ first.sshHosts ∨ ∃ entry ∈ order, entry.1 = host := by
  apply Runs.gathered_of_run (fun report : Report => host ∈ report.sshHosts) _ _ result
  rintro before entry after ⟨⟩
  simp [or_comm, eq_comm]

theorem hosts_of_run_hostCaps (result : Runs.run (hostCapsStep tables) first order = some last)
    (host : String) :
    host ∈ last.hosts ↔ host ∈ first.hosts ∨ ∃ entry ∈ order, entry.1 = host := by
  apply Runs.gathered_of_run (fun report : Report => host ∈ report.hosts) _ _ result
  rintro before entry after ⟨⟩
  simp [or_comm, eq_comm]

theorem pqcHosts_of_run_hostCaps (result : Runs.run (hostCapsStep tables) first order = some last)
    (host : String) :
    host ∈ last.pqcHosts ↔ host ∈ first.pqcHosts ∨
      ∃ entry ∈ order, entry.1 = host ∧ kexPqcSupported tables.kexAlgos entry.2 = true := by
  apply Runs.gathered_of_run (fun report : Report => host ∈ report.pqcHosts) _ _ result
  rintro before entry after ⟨⟩
  by_cases pqc : kexPqcSupported tables.kexAlgos entry.2 = true <;>
    simp [pqc, or_comm, eq_comm]

/-- Every host is visited once, so its label stays. -/
theorem sshLabels_of_run (nodup : (order.map Prod.fst).Nodup)
    (result : Runs.run (hostCapsStep tables) first order = some last) :
    ∀ entry ∈ order, last.sshHostsPqc.lookup entry.1 =
      some (pqcSupport (kexPqcSupported tables.kexAlgos entry.2)) := by
  have labelled := Runs.history_of_run (fun past (report : Report) => (past.map Prod.fst).Nodup →
    ∀ entry ∈ past, report.sshHostsPqc.lookup entry.1 =
      some (pqcSupport (kexPqcSupported tables.kexAlgos entry.2))) ?_ [] (by simp) result
  · exact labelled nodup
  rintro past before entry after labelled ⟨⟩ nodup other membership
  rw [List.map_append, List.nodup_append] at nodup
  obtain ⟨earlierNodup, -, distinct⟩ := nodup
  rcases List.mem_append.mp membership with earlier | now
  · have others : other.1 ≠ entry.1 :=
      distinct _ (List.mem_map_of_mem earlier) _ (by simp)
    rw [HashMap.lookup_insert_eq, if_neg others]
    exact labelled earlierNodup other earlier
  · cases List.mem_singleton.mp now
    exact Finmap.lookup_insert _

end HostCaps

section SshSessions

variable {order : List (FlowKey × SshSession)}

def countedSsh (tables : Tables) (entry : FlowKey × SshSession) : Bool :=
  match entry.2.negotiated with
  | none => false
  | some neg => ((tables.kexAlgos.lookup neg.kex).map KexAlgo.pqc).getD false

theorem sshSessionStep_effect {before after : Report} {entry : FlowKey × SshSession}
    (stepped : sshSessionStep tables before entry = some after) :
    after = { before with
      sshSessionsResults := after.sshSessionsResults
      sshPqcSupportedCount := before.sshPqcSupportedCount +
        if countedSsh tables entry then 1 else 0 } := by
  obtain ⟨flow, session⟩ := entry
  cases negotiated : session.negotiated with
  | none =>
    simp only [sshSessionStep, negotiated] at stepped
    cases stepped
    simp [countedSsh, negotiated]
  | some neg =>
    simp only [sshSessionStep, negotiated, Option.bind_eq_bind, Option.bind_eq_some_iff] at stepped
    obtain ⟨src, -, dst, -, stepped⟩ := stepped
    cases known : tables.kexAlgos.lookup neg.kex with
    | none =>
      simp only [known] at stepped
      cases stepped
      simp [countedSsh, negotiated, known]
    | some algo =>
      simp only [known] at stepped
      cases stepped
      simp [countedSsh, negotiated, known]

theorem sshSessions_frame (result : Runs.run (sshSessionStep tables) first order = some last) :
    last = { first with
      sshSessionsResults := last.sshSessionsResults
      sshPqcSupportedCount := last.sshPqcSupportedCount } := by
  apply Runs.invariant_of_run (fun report => report = { first with
    sshSessionsResults := report.sshSessionsResults
    sshPqcSupportedCount := report.sshPqcSupportedCount }) _ rfl result
  intro before entry after same stepped
  rw [sshSessionStep_effect stepped, same]

theorem sshCount_of_run (result : Runs.run (sshSessionStep tables) first order = some last) :
    last.sshPqcSupportedCount =
      first.sshPqcSupportedCount + order.countP (countedSsh tables) := by
  apply Runs.counted_of_run Report.sshPqcSupportedCount _ _ result
  intro before entry after stepped
  rw [sshSessionStep_effect stepped]

end SshSessions

/-! ## TLS hosts -/

section TlsHosts

variable {order : List (String × Finset UInt16)}

theorem tlsCiphersStep_eq_some {before after : Report} {entry : String × Finset UInt16}
    (stepped : tlsCiphersStep tables before entry = some after) :
    ∃ ip, printedIp entry.1 = some ip ∧ after = { before with
      tlsHosts := insert ip before.tlsHosts, tlsHostsCiphers := after.tlsHostsCiphers } := by
  simp only [tlsCiphersStep, Option.bind_eq_bind, Option.bind_eq_some_iff] at stepped
  obtain ⟨ip, read, stepped⟩ := stepped
  cases stepped
  exact ⟨ip, read, rfl⟩

theorem tlsCiphers_frame (result : Runs.run (tlsCiphersStep tables) first order = some last) :
    last = { first with
      tlsHosts := last.tlsHosts, tlsHostsCiphers := last.tlsHostsCiphers } := by
  apply Runs.invariant_of_run (fun report => report = { first with
    tlsHosts := report.tlsHosts, tlsHostsCiphers := report.tlsHostsCiphers }) _ rfl result
  intro before entry after same stepped
  obtain ⟨ip, -, stepped⟩ := tlsCiphersStep_eq_some stepped
  rw [stepped, same]

theorem tlsHosts_of_run (result : Runs.run (tlsCiphersStep tables) first order = some last)
    (host : String) :
    host ∈ last.tlsHosts ↔
      host ∈ first.tlsHosts ∨ ∃ entry ∈ order, printedIp entry.1 = some host := by
  apply Runs.gathered_of_run (fun report : Report => host ∈ report.tlsHosts) _ _ result
  intro before entry after stepped
  obtain ⟨ip, read, stepped⟩ := tlsCiphersStep_eq_some stepped
  rw [stepped]
  simp [read, or_comm, eq_comm]

theorem keyshare_frame (result : Runs.run (keyshareStep tables) first order = some last) :
    last = { first with
      hosts := last.hosts, pqcHosts := last.pqcHosts, tlsHostsPqc := last.tlsHostsPqc
      tlsHostCapabilities := last.tlsHostCapabilities } := by
  apply Runs.invariant_of_run (fun report => report = { first with
    hosts := report.hosts, pqcHosts := report.pqcHosts, tlsHostsPqc := report.tlsHostsPqc
    tlsHostCapabilities := report.tlsHostCapabilities }) _ rfl result
  intro before entry after same stepped
  simp only [keyshareStep, Option.bind_eq_bind, Option.bind_eq_some_iff] at stepped
  obtain ⟨ip, -, stepped⟩ := stepped
  cases stepped
  rw [same]

theorem hosts_of_run_keyshare (result : Runs.run (keyshareStep tables) first order = some last)
    (host : String) :
    host ∈ last.hosts ↔
      host ∈ first.hosts ∨ ∃ entry ∈ order, printedIp entry.1 = some host := by
  apply Runs.gathered_of_run (fun report : Report => host ∈ report.hosts) _ _ result
  intro before entry after stepped
  simp only [keyshareStep, Option.bind_eq_bind, Option.bind_eq_some_iff] at stepped
  obtain ⟨ip, read, stepped⟩ := stepped
  cases stepped
  simp [read, or_comm, eq_comm]

theorem tls12_frame {hosts : List String} (result : Runs.run tls12Step first hosts = some last) :
    last = { first with tlsHostsPqc := last.tlsHostsPqc } := by
  apply Runs.invariant_of_run (fun report => report = { first with
    tlsHostsPqc := report.tlsHostsPqc }) _ rfl result
  intro before host after same stepped
  unfold tls12Step at stepped
  split at stepped <;> cases stepped
  · exact same
  · rw [same]

/-- The loop labels the hosts that have no label yet. -/
theorem tls12_of_run {hosts : List String} (result : Runs.run tls12Step first hosts = some last)
    (host : String) :
    last.tlsHostsPqc.lookup host = if host ∈ hosts then
      some ((first.tlsHostsPqc.lookup host).getD "TLS 1.2") else first.tlsHostsPqc.lookup host := by
  apply Runs.history_of_run (fun past (report : Report) => report.tlsHostsPqc.lookup host =
    if host ∈ past then some ((first.tlsHostsPqc.lookup host).getD "TLS 1.2")
    else first.tlsHostsPqc.lookup host) _ [] (by simp) result
  intro past before other after labelled stepped
  unfold tls12Step at stepped
  by_cases same : host = other
  · subst same
    rw [if_pos (by simp)]
    split at stepped
    · next present =>
      obtain ⟨label, found⟩ := Finmap.mem_iff.mp present
      cases stepped
      rw [found] at labelled ⊢
      split at labelled
      · exact labelled
      · rw [← labelled, Option.getD_some]
    · next absent =>
      cases stepped
      rw [Finmap.lookup_insert]
      rw [Finmap.lookup_eq_none.mpr absent] at labelled
      split at labelled
      · cases labelled
      · rw [← labelled, Option.getD_none]
  · have others : (host ∈ past ++ [other]) = (host ∈ past) := by simp [same]
    simp only [others]
    split at stepped <;> cases stepped
    · exact labelled
    · rw [Finmap.lookup_insert_of_ne _ same]
      exact labelled

end TlsHosts

/-! ## TLS sessions -/

section TlsSessions

variable {order : List (TlsSessionKey × UInt16)}

def countedTls (tables : Tables) (entry : TlsSessionKey × UInt16) : Bool :=
  ((tables.groups.lookup entry.2).map fun group => group.hybrid || group.pqc).getD false

theorem tlsSessionStep_effect {before after : Report} {entry : TlsSessionKey × UInt16}
    (stepped : tlsSessionStep tables before entry = some after) :
    after = { before with
      tlsSessionsResults := after.tlsSessionsResults
      tlsPqcSupportedCount := before.tlsPqcSupportedCount +
        if countedTls tables entry then 1 else 0 } ∧
    ∀ ip, ip ∈ after.tlsSessionsResults ↔
      ip ∈ before.tlsSessionsResults ∨ entry.1.srcIp.display = ip := by
  obtain ⟨key, value⟩ := entry
  cases known : tables.groups.lookup value with
  | none =>
    simp only [tlsSessionStep, known] at stepped
    cases stepped
    refine ⟨by simp [countedTls, known], fun ip => ?_⟩
    rw [HashMap.mem_update, or_comm, eq_comm]
  | some group =>
    simp only [tlsSessionStep, known] at stepped
    cases stepped
    refine ⟨by simp [countedTls, known], fun ip => ?_⟩
    rw [HashMap.mem_update, HashMap.mem_update, ← or_assoc, or_self, or_comm, eq_comm]

theorem tlsSessions_frame (result : Runs.run (tlsSessionStep tables) first order = some last) :
    last = { first with
      tlsSessionsResults := last.tlsSessionsResults
      tlsPqcSupportedCount := last.tlsPqcSupportedCount } := by
  apply Runs.invariant_of_run (fun report => report = { first with
    tlsSessionsResults := report.tlsSessionsResults
    tlsPqcSupportedCount := report.tlsPqcSupportedCount }) _ rfl result
  intro before entry after same stepped
  rw [(tlsSessionStep_effect stepped).1, same]

theorem tlsCount_of_run (result : Runs.run (tlsSessionStep tables) first order = some last) :
    last.tlsPqcSupportedCount =
      first.tlsPqcSupportedCount + order.countP (countedTls tables) := by
  apply Runs.counted_of_run Report.tlsPqcSupportedCount _ _ result
  intro before entry after stepped
  rw [(tlsSessionStep_effect stepped).1]

theorem tlsSessionsResults_of_run
    (result : Runs.run (tlsSessionStep tables) first order = some last) (ip : String) :
    ip ∈ last.tlsSessionsResults ↔
      ip ∈ first.tlsSessionsResults ∨ ∃ entry ∈ order, entry.1.srcIp.display = ip := by
  apply Runs.gathered_of_run (fun report : Report => ip ∈ report.tlsSessionsResults) _ _ result
  intro before entry after stepped
  exact (tlsSessionStep_effect stepped).2 ip

end TlsSessions

/-! ## All loops -/

/-- The orders in which the loops visit the maps of a capture, and then the TLS hosts. -/
structure Orders.Visits (orders : Orders) (state : CaptureState) : Prop where
  hostCaps : HashMap.Enumerates orders.hostCaps state.ssh.hostCaps
  sshSessions : HashMap.Enumerates orders.sshSessions state.ssh.sessions
  tlsCiphers : HashMap.Enumerates orders.tlsCiphers state.tls.tlsCiphers
  keyshareGroups : HashMap.Enumerates orders.keyshareGroups state.tls.keyshareGroups
  tlsHosts : ∀ host, host ∈ orders.tlsHosts ↔
    ∃ key ∈ state.tls.tlsCiphers, printedIp key = some host
  tlsSessions : HashMap.Enumerates orders.tlsSessions state.tls.tlsSessions

/-- What the report says, in terms of the maps it was made from. -/
structure Report.Describes (tables : Tables) (state : CaptureState) (report : Report) : Prop where
  sshHosts : ∀ host, host ∈ report.sshHosts ↔ host ∈ state.ssh.hostCaps
  sshLabels : ∀ host caps, state.ssh.hostCaps.lookup host = some caps →
    report.sshHostsPqc.lookup host = some (pqcSupport (kexPqcSupported tables.kexAlgos caps))
  tlsHosts : ∀ host, host ∈ report.tlsHosts ↔
    ∃ key ∈ state.tls.tlsCiphers, printedIp key = some host
  tlsLabels : ∀ host ∈ report.tlsHosts,
    (∀ key ∈ state.tls.keyshareGroups, printedIp key ≠ some host) →
      report.tlsHostsPqc.lookup host = some "TLS 1.2"
  hosts : ∀ host, host ∈ report.hosts ↔ host ∈ state.ssh.hostCaps ∨
    ∃ key ∈ state.tls.keyshareGroups, printedIp key = some host
  pqcHosts : ∀ host, host ∈ report.pqcHosts ↔
    (∃ caps, state.ssh.hostCaps.lookup host = some caps ∧
      kexPqcSupported tables.kexAlgos caps = true) ∨
    HostPqc tables state.tls.keyshareGroups host
  tlsSessions : ∀ ip, ip ∈ report.tlsSessionsResults ↔
    ∃ key ∈ state.tls.tlsSessions, key.srcIp.display = ip

structure Report.Counts (tables : Tables) (orders : Orders) (report : Report) : Prop where
  ssh : report.sshPqcSupportedCount = orders.sshSessions.countP (countedSsh tables)
  tls : report.tlsPqcSupportedCount = orders.tlsSessions.countP (countedTls tables)

variable {orders : Orders} {state : CaptureState} {report : Report}

/-- The report after each of the loops. -/
structure Stages (tables : Tables) (orders : Orders) (first second third fourth fifth report :
    Report) : Prop where
  hostCaps : Runs.run (hostCapsStep tables) .empty orders.hostCaps = some first
  sshSessions : Runs.run (sshSessionStep tables) first orders.sshSessions = some second
  tlsCiphers : Runs.run (tlsCiphersStep tables) second orders.tlsCiphers = some third
  keyshareGroups : Runs.run (keyshareStep tables) third orders.keyshareGroups = some fourth
  tlsHosts : Runs.run tls12Step fourth orders.tlsHosts = some fifth
  tlsSessions : Runs.run (tlsSessionStep tables) fifth orders.tlsSessions = some report

theorem exists_stages (completes : runReport tables orders = some report) :
    ∃ first second third fourth fifth,
      Stages tables orders first second third fourth fifth report := by
  simp only [runReport, Option.bind_eq_bind, Option.bind_eq_some_iff] at completes
  obtain ⟨first, hostCaps, second, sshSessions, third, tlsCiphers, fourth, keyshareGroups, fifth,
    tlsHosts, tlsSessions⟩ := completes
  exact ⟨first, second, third, fourth, fifth, hostCaps, sshSessions, tlsCiphers, keyshareGroups,
    tlsHosts, tlsSessions⟩

section Stages

variable {first second third fourth fifth : Report}

theorem Stages.ssh_frame (stages : Stages tables orders first second third fourth fifth report) :
    second = { first with
      sshSessionsResults := second.sshSessionsResults
      sshPqcSupportedCount := second.sshPqcSupportedCount } ∧
    second.tlsHosts = ∅ ∧ second.tlsHostsPqc = ∅ ∧ second.tlsSessionsResults = ∅ ∧
    second.tlsPqcSupportedCount = 0 := by
  have frame := sshSessions_frame stages.sshSessions
  refine ⟨frame, ?_⟩
  rw [frame, hostCaps_frame stages.hostCaps, Report.empty]
  exact ⟨rfl, rfl, rfl, rfl⟩

theorem Stages.tls_frame (stages : Stages tables orders first second third fourth fifth report) :
    report.sshHosts = second.sshHosts ∧ report.sshHostsPqc = second.sshHostsPqc ∧
    report.sshPqcSupportedCount = second.sshPqcSupportedCount := by
  rw [tlsSessions_frame stages.tlsSessions, tls12_frame stages.tlsHosts,
    keyshare_frame stages.keyshareGroups, tlsCiphers_frame stages.tlsCiphers]
  exact ⟨rfl, rfl, rfl⟩

/-- Only two loops write the sets of all hosts. -/
theorem Stages.hosts_frame (stages : Stages tables orders first second third fourth fifth report) :
    report.hosts = fourth.hosts ∧ third.hosts = first.hosts ∧
    report.pqcHosts = fourth.pqcHosts ∧ third.pqcHosts = first.pqcHosts := by
  rw [tlsSessions_frame stages.tlsSessions, tls12_frame stages.tlsHosts,
    tlsCiphers_frame stages.tlsCiphers, stages.ssh_frame.1]
  exact ⟨rfl, rfl, rfl, rfl⟩

theorem Stages.visited (stages : Stages tables orders first second third fourth fifth report) :
    Visited tables third orders.keyshareGroups fourth := by
  apply visited_of_run _ stages.keyshareGroups
  rw [tlsCiphers_frame stages.tlsCiphers]
  exact stages.ssh_frame.2.2.1

theorem Stages.mem_tlsHosts (stages : Stages tables orders first second third fourth fifth report)
    (visits : orders.Visits state) (host : String) :
    host ∈ report.tlsHosts ↔ ∃ key ∈ state.tls.tlsCiphers, printedIp key = some host := by
  have kept : report.tlsHosts = third.tlsHosts := by
    rw [tlsSessions_frame stages.tlsSessions, tls12_frame stages.tlsHosts,
      keyshare_frame stages.keyshareGroups]
  rw [kept, tlsHosts_of_run stages.tlsCiphers, stages.ssh_frame.2.1,
    visits.tlsCiphers.exists_key_iff fun key => printedIp key = some host]
  simp

theorem Stages.tlsLabel (stages : Stages tables orders first second third fourth fifth report)
    (visits : orders.Visits state) {host : String} (listed : host ∈ report.tlsHosts)
    (without : ∀ key ∈ state.tls.keyshareGroups, printedIp key ≠ some host) :
    report.tlsHostsPqc.lookup host = some "TLS 1.2" := by
  have visited : host ∈ orders.tlsHosts :=
    (visits.tlsHosts host).mpr ((stages.mem_tlsHosts visits host).mp listed)
  have noEntries : entriesOf orders.keyshareGroups host = [] := by
    apply List.eq_nil_iff_forall_not_mem.mpr
    rintro ⟨key, values⟩ membership
    obtain ⟨membership, read⟩ := mem_entriesOf.mp membership
    have found := (visits.keyshareGroups.mem_iff key values).mp membership
    exact without key (Finmap.mem_of_lookup_eq_some found) read
  have noLabel : fourth.tlsHostsPqc.lookup host = none := by
    rw [stages.visited.verdicts, noEntries]
    rfl
  rw [tlsSessions_frame stages.tlsSessions, tls12_of_run stages.tlsHosts, if_pos visited, noLabel,
    Option.getD_none]

end Stages

theorem describes_of_runReport (visits : orders.Visits state)
    (completes : runReport tables orders = some report) : report.Describes tables state := by
  obtain ⟨first, second, third, fourth, fifth, stages⟩ := exists_stages completes
  obtain ⟨sshFrame, -, -, noResults, -⟩ := stages.ssh_frame
  obtain ⟨sshHosts, sshHostsPqc, -⟩ := stages.tls_frame
  obtain ⟨hosts, earlierHosts, pqcHosts, earlierPqcHosts⟩ := stages.hosts_frame
  have visitedHost (host : String) := visits.hostCaps.exists_key_iff fun key => key = host
  refine ⟨fun host => ?_, fun host caps found => ?_, stages.mem_tlsHosts visits,
    fun host => stages.tlsLabel visits, fun host => ?_, fun host => ?_, fun ip => ?_⟩
  · rw [sshHosts, sshFrame, sshHosts_of_run stages.hostCaps, visitedHost]
    simp [Report.empty]
  · rw [sshHostsPqc, sshFrame]
    exact sshLabels_of_run visits.hostCaps.nodup stages.hostCaps (host, caps)
      ((visits.hostCaps.mem_iff host caps).mpr found)
  · rw [hosts, hosts_of_run_keyshare stages.keyshareGroups, earlierHosts,
      hosts_of_run_hostCaps stages.hostCaps, visitedHost,
      visits.keyshareGroups.exists_key_iff fun key => printedIp key = some host]
    simp [Report.empty]
  · rw [pqcHosts, stages.visited.hosts, earlierPqcHosts, pqcHosts_of_run_hostCaps stages.hostCaps,
      ← hostPqc_iff_entriesOf visits.keyshareGroups,
      visits.hostCaps.exists_iff fun entry => entry.1 = host ∧
        kexPqcSupported tables.kexAlgos entry.2 = true]
    simp [Report.empty]
  · rw [tlsSessionsResults_of_run stages.tlsSessions, tls12_frame stages.tlsHosts,
      keyshare_frame stages.keyshareGroups, tlsCiphers_frame stages.tlsCiphers, noResults,
      visits.tlsSessions.exists_key_iff fun key => key.srcIp.display = ip]
    simp [Finmap.notMem_empty]

theorem counts_of_runReport (completes : runReport tables orders = some report) :
    report.Counts tables orders := by
  obtain ⟨first, second, third, fourth, fifth, stages⟩ := exists_stages completes
  obtain ⟨-, -, -, -, noTls⟩ := stages.ssh_frame
  constructor
  · rw [stages.tls_frame.2.2, sshCount_of_run stages.sshSessions, hostCaps_frame stages.hostCaps,
      Report.empty, Nat.zero_add]
  · rw [tlsCount_of_run stages.tlsSessions, tls12_frame stages.tlsHosts,
      keyshare_frame stages.keyshareGroups, tlsCiphers_frame stages.tlsCiphers, noTls,
      Nat.zero_add]

/-! ## Reports that are made -/

/-- The report aborts only on a key or a flow that it cannot read. -/
theorem exists_report (tables : Tables) (visits : orders.Visits state)
    (keys : ∀ key, state.tls.HasKey key → ∃ ip, printedIp key = some ip)
    (flows : ∀ flow ∈ state.ssh.sessions, ∃ source destination,
      SocketAddr.parse flow.src = some source ∧ SocketAddr.parse flow.dst = some destination) :
    ∃ report, runReport tables orders = some report := by
  obtain ⟨first, hostCaps⟩ : ∃ first,
      Runs.run (hostCapsStep tables) .empty orders.hostCaps = some first :=
    Runs.exists_run_of_mem (fun _ _ _ => ⟨_, rfl⟩) _
  obtain ⟨second, sshSessions⟩ : ∃ second,
      Runs.run (sshSessionStep tables) first orders.sshSessions = some second := by
    apply Runs.exists_run_of_mem
    rintro ⟨flow, session⟩ membership before
    have found := (visits.sshSessions.mem_iff flow session).mp membership
    obtain ⟨source, destination, src, dst⟩ := flows flow (Finmap.mem_of_lookup_eq_some found)
    cases negotiated : session.negotiated with
    | none => simp [sshSessionStep, negotiated]
    | some neg =>
      cases known : tables.kexAlgos.lookup neg.kex <;>
        simp [sshSessionStep, negotiated, src, dst, known]
  obtain ⟨third, tlsCiphers⟩ : ∃ third,
      Runs.run (tlsCiphersStep tables) second orders.tlsCiphers = some third := by
    apply Runs.exists_run_of_mem
    rintro ⟨key, values⟩ membership before
    have found := (visits.tlsCiphers.mem_iff key values).mp membership
    obtain ⟨ip, read⟩ := keys key (.inl (Finmap.mem_of_lookup_eq_some found))
    simp [tlsCiphersStep, read]
  obtain ⟨fourth, keyshareGroups⟩ : ∃ fourth,
      Runs.run (keyshareStep tables) third orders.keyshareGroups = some fourth := by
    apply exists_run_keyshareStep
    rintro ⟨key, values⟩ membership
    have found := (visits.keyshareGroups.mem_iff key values).mp membership
    exact keys key (.inr (Finmap.mem_of_lookup_eq_some found))
  obtain ⟨fifth, tlsHosts⟩ : ∃ fifth, Runs.run tls12Step fourth orders.tlsHosts = some fifth := by
    apply Runs.exists_run_of_mem
    intro host _ before
    by_cases present : host ∈ before.tlsHostsPqc <;> simp [tls12Step, present]
  obtain ⟨report, tlsSessions⟩ : ∃ report,
      Runs.run (tlsSessionStep tables) fifth orders.tlsSessions = some report := by
    apply Runs.exists_run_of_mem
    rintro ⟨key, value⟩ _ before
    cases known : tables.groups.lookup value <;> simp [tlsSessionStep, known]
  refine ⟨report, ?_⟩
  simp only [runReport, hostCaps, sshSessions, tlsCiphers, keyshareGroups, tlsHosts,
    Option.bind_eq_bind, Option.bind_some, tlsSessions]

end PqcUtils.Dump

import PqcUtils.Dump.Report.Listing
import PqcUtils.Library.Commuting

/-!
# The report and the orders of its loops

A hash map is visited in another order at each run. Every loop adds to sets and
counters, so no order is seen in what it leaves behind, with one exception: the label
of a TLS host is written anew at each of its keys.
-/

namespace PqcUtils.Dump

open Net Runs

variable {tables : Tables}

/-! ## Additions -/

theorem commutes_of_keys {State Key Value : Type} {step : State → Key × Value → Option State}
    {order : List (Key × Value)} (nodup : (order.map Prod.fst).Nodup)
    (commutes : ∀ first second : Key × Value, first.1 ≠ second.1 → Commutes step first second) :
    ∀ first ∈ order, ∀ second ∈ order, Commutes step first second := by
  intro first membership second membership'
  by_cases same : first.1 = second.1
  · rw [List.inj_on_of_nodup_map nodup membership membership' same]
    exact fun _ => rfl
  · exact commutes first second same

theorem insertIf_comm (set : Finset String) (first second : String) (also also' : Bool) :
    (if also' then insert second (if also then insert first set else set)
      else if also then insert first set else set) =
    if also then insert first (if also' then insert second set else set)
      else if also' then insert second set else set := by
  cases also <;> cases also' <;> simp [Finset.insert_comm]

theorem union_comm {Value : Type} [DecidableEq Value] (map : HashMap String (Finset Value))
    (key key' : String) (values values' : Finset Value) :
    (map.update key ∅ fun set => set ∪ values).update key' ∅ (fun set => set ∪ values') =
      (map.update key' ∅ fun set => set ∪ values').update key ∅ (fun set => set ∪ values) :=
  HashMap.update_comm map ∅ fun _ set => Finset.union_right_comm set values' values

/-! ## SSH hosts and sessions -/

theorem commutes_hostCapsStep (first second : String × HostCapabilities)
    (distinct : first.1 ≠ second.1) : Commutes (hostCapsStep tables) first second := by
  intro report
  simp only [hostCapsStep, Option.bind_some, Option.some.injEq, Report.mk.injEq, and_true]
  exact ⟨Finset.insert_comm .., insertIf_comm .., Finset.insert_comm ..,
    HashMap.insert_comm _ distinct _ _, union_comm ..⟩

structure Addition where
  host : String
  results : Finset SessionResult
  counted : Nat

def Addition.apply (addition : Option Addition) (results : HashMap String (Finset SessionResult))
    (count : Nat) : HashMap String (Finset SessionResult) × Nat :=
  match addition with
  | none => (results, count)
  | some addition =>
    (results.update addition.host ∅ fun set => set ∪ addition.results, count + addition.counted)

theorem Addition.apply_comm (first second : Option Addition)
    (results : HashMap String (Finset SessionResult)) (count : Nat) :
    Addition.apply second (Addition.apply first results count).1
        (Addition.apply first results count).2 =
      Addition.apply first (Addition.apply second results count).1
        (Addition.apply second results count).2 := by
  cases first <;> cases second <;> simp only [Addition.apply]
  rw [union_comm, Nat.add_right_comm]

theorem update_insert (results : HashMap String (Finset SessionResult)) (host : String)
    (result : SessionResult) :
    (results.update host ∅ id).update host ∅ (insert result) =
      results.update host ∅ fun set => set ∪ {result} := by
  apply Finmap.ext_lookup
  intro other
  by_cases same : other = host
  · rw [same]
    simp
  · simp only [HashMap.lookup_update_of_ne _ _ _ same]

/-- What a session adds; `none` if the report cannot read its flow. -/
def sshAddition (tables : Tables) (entry : FlowKey × SshSession) : Option (Option Addition) :=
  match entry.2.negotiated with
  | none => some none
  | some neg =>
    (SocketAddr.parse entry.1.src).bind fun src => (SocketAddr.parse entry.1.dst).map fun dst =>
      match tables.kexAlgos.lookup neg.kex with
      | none => some ⟨src.ip.display, ∅, 0⟩
      | some algo =>
        let description :=
          if algo.pqc then pqcSupportedText else if algo.isHybrid then "Hybrid" else "NOT Supported"
        some ⟨src.ip.display,
          {⟨src.ip.display, src.port, dst.ip.display, dst.port, neg.kex, description⟩},
          if algo.pqc then 1 else 0⟩

theorem sshSessionStep_eq (report : Report) (entry : FlowKey × SshSession) :
    sshSessionStep tables report entry = (sshAddition tables entry).map fun addition =>
      let (results, count) :=
        Addition.apply addition report.sshSessionsResults report.sshPqcSupportedCount
      { report with sshSessionsResults := results, sshPqcSupportedCount := count } := by
  obtain ⟨flow, session⟩ := entry
  cases negotiated : session.negotiated with
  | none => simp [sshSessionStep, sshAddition, negotiated, Addition.apply]
  | some neg =>
    cases src : SocketAddr.parse flow.src with
    | none => simp [sshSessionStep, sshAddition, negotiated, src]
    | some source =>
      cases dst : SocketAddr.parse flow.dst with
      | none => simp [sshSessionStep, sshAddition, negotiated, src, dst]
      | some destination =>
        cases known : tables.kexAlgos.lookup neg.kex with
        | none =>
          simp [sshSessionStep, sshAddition, negotiated, src, dst, known, Addition.apply]
          rfl
        | some algo =>
          simp [sshSessionStep, sshAddition, negotiated, src, dst, known, Addition.apply,
            update_insert]

theorem commutes_sshSessionStep (first second : FlowKey × SshSession) :
    Commutes (sshSessionStep tables) first second := by
  intro report
  simp only [sshSessionStep_eq]
  cases sshAddition tables first <;> cases sshAddition tables second <;> try rfl
  next addition addition' =>
  have same := Addition.apply_comm addition addition' report.sshSessionsResults
    report.sshPqcSupportedCount
  rw [Prod.ext_iff] at same
  simp [same]

/-! ## TLS hosts and sessions -/

theorem commutes_tlsCiphersStep (first second : String × Finset UInt16) :
    Commutes (tlsCiphersStep tables) first second := by
  intro report
  cases read : printedIp first.1 <;> cases read' : printedIp second.1 <;>
    simp only [tlsCiphersStep, read, read', Option.bind_eq_bind, Option.bind_none,
      Option.bind_some, Option.some.injEq, Report.mk.injEq, true_and, and_true]
  exact ⟨Finset.insert_comm .., union_comm ..⟩

def SameVerdict (tables : Tables) (first second : String × Finset UInt16) : Prop :=
  ∀ ip, printedIp first.1 = some ip → printedIp second.1 = some ip →
    groupsPqcSupported tables.groups first.2 = groupsPqcSupported tables.groups second.2

theorem commutes_keyshareStep {first second : String × Finset UInt16}
    (same : SameVerdict tables first second) : Commutes (keyshareStep tables) first second := by
  intro report
  cases read : printedIp first.1 <;> cases read' : printedIp second.1 <;>
    simp only [keyshareStep, read, read', Option.bind_eq_bind, Option.bind_none,
      Option.bind_some, Option.some.injEq, Report.mk.injEq, true_and, and_true]
  next ip ip' =>
  refine ⟨Finset.insert_comm .., insertIf_comm .., ?_, union_comm ..⟩
  by_cases host : ip = ip'
  · rw [same ip read (host ▸ read'), host]
  · exact HashMap.insert_comm _ host _ _

def Report.unlabelled (report : Report) : Report := { report with tlsHostsPqc := ∅ }

def keyshareStepUnlabelled (tables : Tables) (report : Report) (entry : String × Finset UInt16) :
    Option Report :=
  (keyshareStep tables report entry).map Report.unlabelled

theorem commutes_keyshareStepUnlabelled (first second : String × Finset UInt16) :
    Commutes (keyshareStepUnlabelled tables) first second := by
  intro report
  cases read : printedIp first.1 <;> cases read' : printedIp second.1 <;>
    simp only [keyshareStepUnlabelled, keyshareStep, Report.unlabelled, read, read',
      Option.bind_eq_bind, Option.bind_none, Option.bind_some, Option.map_none, Option.map_some,
      Option.some.injEq, Report.mk.injEq, true_and, and_true]
  exact ⟨Finset.insert_comm .., insertIf_comm .., union_comm ..⟩

theorem unlabelled_keyshareStep (report : Report) (entry : String × Finset UInt16) :
    (keyshareStep tables report entry).map Report.unlabelled =
      keyshareStepUnlabelled tables report.unlabelled entry := by
  cases read : printedIp entry.1 <;>
    simp [keyshareStepUnlabelled, keyshareStep, Report.unlabelled, read]

def tlsAddition (tables : Tables) (entry : TlsSessionKey × UInt16) : Addition :=
  match tables.groups.lookup entry.2 with
  | none => ⟨entry.1.srcIp.display, ∅, 0⟩
  | some group =>
    let description :=
      if group.hybrid then "Hybrid" else if group.pqc then "Pure PQC" else "NOT Supported"
    ⟨entry.1.srcIp.display,
      {⟨entry.1.srcIp.display, entry.1.srcPort, entry.1.dstIp.display, entry.1.dstPort, group.name,
        description⟩},
      if group.hybrid || group.pqc then 1 else 0⟩

theorem tlsSessionStep_eq (report : Report) (entry : TlsSessionKey × UInt16) :
    tlsSessionStep tables report entry =
      let (results, count) := Addition.apply (some (tlsAddition tables entry))
        report.tlsSessionsResults report.tlsPqcSupportedCount
      some { report with tlsSessionsResults := results, tlsPqcSupportedCount := count } := by
  obtain ⟨key, value⟩ := entry
  cases known : tables.groups.lookup value with
  | none =>
    simp [tlsSessionStep, tlsAddition, known, Addition.apply]
    rfl
  | some group => simp [tlsSessionStep, tlsAddition, known, Addition.apply, update_insert]

theorem commutes_tlsSessionStep (first second : TlsSessionKey × UInt16) :
    Commutes (tlsSessionStep tables) first second := by
  intro report
  have same := Addition.apply_comm (some (tlsAddition tables first))
    (some (tlsAddition tables second)) report.tlsSessionsResults report.tlsPqcSupportedCount
  rw [Prod.ext_iff] at same
  simp [tlsSessionStep_eq, same]

theorem unlabelled_tlsSessionStep (report : Report) (entry : TlsSessionKey × UInt16) :
    (tlsSessionStep tables report entry).map Report.unlabelled =
      tlsSessionStep tables report.unlabelled entry := by
  simp [tlsSessionStep_eq, Report.unlabelled]

/-! ## The loop over the hosts -/

theorem exists_run_tls12Step (hosts : List String) (report : Report) :
    ∃ last, Runs.run tls12Step report hosts = some last := by
  apply Runs.exists_run_of_mem
  intro host _ before
  by_cases present : host ∈ before.tlsHostsPqc <;> simp [tls12Step, present]

theorem unlabelled_of_run_tls12Step {hosts : List String} {first last : Report}
    (result : Runs.run tls12Step first hosts = some last) :
    last.unlabelled = first.unlabelled := by
  rw [tls12_frame result]
  rfl

theorem run_tls12Step_congr {hosts hosts' : List String}
    (same : ∀ host, host ∈ hosts ↔ host ∈ hosts') (report : Report) :
    Runs.run tls12Step report hosts = Runs.run tls12Step report hosts' := by
  obtain ⟨last, result⟩ := exists_run_tls12Step hosts report
  obtain ⟨last', result'⟩ := exists_run_tls12Step hosts' report
  have labels : last.tlsHostsPqc = last'.tlsHostsPqc := by
    apply Finmap.ext_lookup
    intro host
    rw [tls12_of_run result, tls12_of_run result']
    simp only [same]
  rw [result, result', tls12_frame result, tls12_frame result', labels]

/-! ## All loops -/

variable {orders orders' : Orders} {state : CaptureState}

theorem run_earlier_loops (visits : orders.Visits state) (visits' : orders'.Visits state) :
    ((Runs.run (hostCapsStep tables) .empty orders.hostCaps).bind fun report =>
      (Runs.run (sshSessionStep tables) report orders.sshSessions).bind fun report =>
        Runs.run (tlsCiphersStep tables) report orders.tlsCiphers) =
    (Runs.run (hostCapsStep tables) .empty orders'.hostCaps).bind fun report =>
      (Runs.run (sshSessionStep tables) report orders'.sshSessions).bind fun report =>
        Runs.run (tlsCiphersStep tables) report orders'.tlsCiphers := by
  have hostCaps := run_of_perm (visits.hostCaps.perm_of_same visits'.hostCaps)
    (commutes_of_keys visits.hostCaps.nodup (@commutes_hostCapsStep tables))
  have sshSessions := run_of_perm (visits.sshSessions.perm_of_same visits'.sshSessions)
    fun first _ second _ => @commutes_sshSessionStep tables first second
  have tlsCiphers := run_of_perm (visits.tlsCiphers.perm_of_same visits'.tlsCiphers)
    fun first _ second _ => @commutes_tlsCiphersStep tables first second
  simp only [hostCaps, sshSessions, tlsCiphers]

theorem runReport_eq (tables : Tables) (orders : Orders) :
    runReport tables orders =
      ((Runs.run (hostCapsStep tables) .empty orders.hostCaps).bind fun report =>
        (Runs.run (sshSessionStep tables) report orders.sshSessions).bind fun report =>
          Runs.run (tlsCiphersStep tables) report orders.tlsCiphers).bind fun report =>
            (Runs.run (keyshareStep tables) report orders.keyshareGroups).bind fun report =>
              (Runs.run tls12Step report orders.tlsHosts).bind fun report =>
                Runs.run (tlsSessionStep tables) report orders.tlsSessions := by
  simp only [runReport, Option.bind_eq_bind, Option.bind_assoc]

/-- Without the labels, the later loops are loops over reports without labels. -/
theorem unlabelled_later_loops (orders : Orders) (report : Report) :
    (((Runs.run (keyshareStep tables) report orders.keyshareGroups).bind fun report =>
      (Runs.run tls12Step report orders.tlsHosts).bind fun report =>
        Runs.run (tlsSessionStep tables) report orders.tlsSessions).map Report.unlabelled) =
    (Runs.run (keyshareStepUnlabelled tables) report.unlabelled orders.keyshareGroups).bind
      fun report => Runs.run (tlsSessionStep tables) report orders.tlsSessions := by
  have rest (report : Report) : ((Runs.run tls12Step report orders.tlsHosts).bind fun report =>
      Runs.run (tlsSessionStep tables) report orders.tlsSessions).map Report.unlabelled =
      Runs.run (tlsSessionStep tables) report.unlabelled orders.tlsSessions := by
    obtain ⟨last, result⟩ := exists_run_tls12Step orders.tlsHosts report
    rw [result, Option.bind_some, run_project Report.unlabelled unlabelled_tlsSessionStep,
      unlabelled_of_run_tls12Step result]
  rw [← run_project Report.unlabelled unlabelled_keyshareStep, Option.map_bind, Option.bind_map]
  exact congrArg (Option.bind _) (funext rest)

/-- Apart from the labels of TLS hosts, no order of the loops is seen in the report. -/
theorem unlabelled_runReport (visits : orders.Visits state) (visits' : orders'.Visits state) :
    (runReport tables orders).map Report.unlabelled =
      (runReport tables orders').map Report.unlabelled := by
  have keyshareGroups := run_of_perm (visits.keyshareGroups.perm_of_same visits'.keyshareGroups)
    fun first _ second _ => @commutes_keyshareStepUnlabelled tables first second
  have tlsSessions := run_of_perm (visits.tlsSessions.perm_of_same visits'.tlsSessions)
    fun first _ second _ => @commutes_tlsSessionStep tables first second
  rw [runReport_eq, runReport_eq, run_earlier_loops visits visits', Option.map_bind,
    Option.map_bind]
  refine congrArg (Option.bind _) (funext fun report => ?_)
  rw [Function.comp_apply, Function.comp_apply, unlabelled_later_loops, unlabelled_later_loops]
  simp only [keyshareGroups, tlsSessions]

theorem runReport_of_keysAgree (agree : KeysAgree tables state.tls.keyshareGroups)
    (visits : orders.Visits state) (visits' : orders'.Visits state) :
    runReport tables orders = runReport tables orders' := by
  have sameVerdict : ∀ first ∈ orders.keyshareGroups, ∀ second ∈ orders.keyshareGroups,
      SameVerdict tables first second := by
    rintro ⟨key, values⟩ membership ⟨key', values'⟩ membership' ip read read'
    have found := (visits.keyshareGroups.mem_iff key values).mp membership
    have found' := (visits.keyshareGroups.mem_iff key' values').mp membership'
    have same : tables.Pqc (key, values) ↔ tables.Pqc (key', values') :=
      ⟨agree ip key values key' values' found found' read read',
        agree ip key' values' key values found' found read' read⟩
    exact Bool.eq_iff_iff.mpr
      (groupsPqcSupported_iff.trans (same.trans groupsPqcSupported_iff.symm))
  have keyshareGroups := run_of_perm (visits.keyshareGroups.perm_of_same visits'.keyshareGroups)
    fun first among second among' =>
      commutes_keyshareStep (sameVerdict first among second among')
  have tlsHosts := run_tls12Step_congr fun host =>
    (visits.tlsHosts host).trans (visits'.tlsHosts host).symm
  have tlsSessions := run_of_perm (visits.tlsSessions.perm_of_same visits'.tlsSessions)
    fun first _ second _ => @commutes_tlsSessionStep tables first second
  rw [runReport_eq, runReport_eq, run_earlier_loops visits visits']
  simp only [keyshareGroups, tlsHosts, tlsSessions]

/-- The label of a host is the verdict of its key that is visited last. -/
theorem label_of_runReport {report : Report} (completes : runReport tables orders = some report)
    {ip : String} {entry : String × Finset UInt16}
    (last : (entriesOf orders.keyshareGroups ip).getLast? = some entry) :
    report.tlsHostsPqc.lookup ip =
      some (pqcSupport (groupsPqcSupported tables.groups entry.2)) := by
  obtain ⟨first, second, third, fourth, fifth, stages⟩ := exists_stages completes
  have label := stages.visited.verdicts ip
  rw [last, Option.map_some] at label
  rw [tlsSessions_frame stages.tlsSessions, tls12_of_run stages.tlsHosts, label, Option.getD_some,
    ite_self]

theorem exists_visits_last {key : String} {values : Finset UInt16}
    (found : state.tls.keyshareGroups.lookup key = some values) {ip : String}
    (read : printedIp key = some ip) :
    ∃ orders : Orders, orders.Visits state ∧
      (entriesOf orders.keyshareGroups ip).getLast? = some (key, values) := by
  obtain ⟨orders, visits⟩ := exists_visits state
  have membership := (visits.keyshareGroups.mem_iff key values).mpr found
  have same : orders.keyshareGroups.Perm
      (orders.keyshareGroups.erase (key, values) ++ [(key, values)]) :=
    (List.perm_cons_erase membership).trans (List.perm_append_singleton _ _).symm
  refine ⟨{ orders with keyshareGroups := orders.keyshareGroups.erase (key, values) ++
    [(key, values)] }, { visits with keyshareGroups := visits.keyshareGroups.perm same }, ?_⟩
  simp [entriesOf, read]

/-- The labels aside, the report of a capture is the same whatever the order of its loops is; and
so are the labels, exactly if the keys of each host agree. -/
theorem report_determined_iff {capture : List (Option SlicedPacket)}
    (result : runCapture capture = some state) (ipv4 : Ipv4Only capture) (tables : Tables) :
    (∀ orders orders' : Orders, orders.Visits state → orders'.Visits state →
      (runReport tables orders).map Report.unlabelled =
        (runReport tables orders').map Report.unlabelled) ∧
    ((∀ orders orders' : Orders, orders.Visits state → orders'.Visits state →
      runReport tables orders = runReport tables orders') ↔
        KeysAgree tables state.tls.keyshareGroups) := by
  refine ⟨fun _ _ => unlabelled_runReport, fun determined => ?_,
    fun agree _ _ => runReport_of_keysAgree agree⟩
  intro ip key values key' values' found found' read read' pqc
  obtain ⟨orders, visits, last⟩ := exists_visits_last found read
  obtain ⟨orders', visits', last'⟩ := exists_visits_last found' read'
  obtain ⟨report, completes⟩ := exists_report_of_ipv4Only result ipv4 tables visits
  have label := label_of_runReport completes last
  rw [label_of_runReport ((determined orders orders' visits visits').symm.trans completes) last',
    Option.some.injEq] at label
  exact groupsPqcSupported_iff.mp (pqcSupport_eq_iff.mp
    (label.trans (pqcSupport_eq_iff.mpr (groupsPqcSupported_iff.mpr pqc))))

/-- The two ports of a client disagree, so the order of the loops is seen in its label. -/
theorem report_determined_busyCapture :
    ∃ state, runCapture busyCapture = some state ∧
      (∀ orders orders' : Orders, orders.Visits state → orders'.Visits state →
        (runReport busyTables orders).map Report.unlabelled =
          (runReport busyTables orders').map Report.unlabelled) ∧
      ¬∀ orders orders' : Orders, orders.Visits state → orders'.Visits state →
        runReport busyTables orders = runReport busyTables orders' := by
  have recorded : (runCapture busyCapture).map (fun state =>
      decide (state.tls.keyshareGroups.lookup "10.0.0.1:50001" = some {0x11ec} ∧
        state.tls.keyshareGroups.lookup "10.0.0.1:50000" = some {0x001d})) = some true := by
    decide +kernel
  have read : printedIp "10.0.0.1:50001" = some "10.0.0.1" := by decide +kernel
  have read' : printedIp "10.0.0.1:50000" = some "10.0.0.1" := by decide +kernel
  have classical : groupsPqcSupported busyTables.groups {0x001d} = false := by decide +kernel
  obtain ⟨state, result, maps⟩ := Option.map_eq_some_iff.mp recorded
  obtain ⟨hybrid, other⟩ := of_decide_eq_true maps
  obtain ⟨unlabelled, labels⟩ := report_determined_iff result ipv4Only_busyCapture busyTables
  refine ⟨state, result, unlabelled, fun determined => ?_⟩
  have pqc : busyTables.Pqc ("10.0.0.1:50001", {0x11ec}) :=
    ⟨0x11ec, Finset.mem_singleton_self _, _, rfl, .inl rfl⟩
  have agreed := labels.mp determined _ _ _ _ _ hybrid other read read' pqc
  rw [← groupsPqcSupported_iff, classical] at agreed
  cases agreed

end PqcUtils.Dump

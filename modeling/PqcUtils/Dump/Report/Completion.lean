import PqcUtils.Dump.Connections
import PqcUtils.Dump.Report.Hosts
import PqcUtils.Dump.Report.Listing

/-!
# Captures that have a report

The tool comes to its end unless a parser panics on a payload, or a key of the report
cannot be read. The one is told from the payloads alone, and the other from their
senders, whatever the order of the packets and of the loops.
-/

namespace PqcUtils.Dump

open Net

variable {capture : List (Option SlicedPacket)} {state : CaptureState}

/-! ## The capture -/

theorem run_captureStep_isSome (state : CaptureState) (capture : List (Option SlicedPacket)) :
    (Runs.run captureStep state capture).isSome =
      (Runs.run tlsStep state.tls (dispatches state.reassembler capture)).isSome := by
  induction capture generalizing state with
  | nil => rfl
  | cons sliced capture ih =>
    rw [Runs.run_cons, captureStep_eq, dispatches, Runs.run_append]
    obtain ⟨ssh, recorded⟩ :=
      exists_run_sshStep (dispatchesOf state.reassembler sliced).1 state.ssh
    cases Runs.run tlsStep state.tls (dispatchesOf state.reassembler sliced).1 with
    | none => rfl
    | some tls => simp [recorded, ih]

theorem run_tlsStep_isSome_iff {row : List Dispatch}
    (sent : ∀ dispatch ∈ row, ∃ source destination, dispatch.Sent source destination)
    (store : TlsStore) :
    (Runs.run tlsStep store row).isSome ↔ ∀ dispatch ∈ row, payloadConfig dispatch.2 ≠ none := by
  have step {dispatch : Dispatch} (among : dispatch ∈ row) (before : TlsStore) :
      (∃ after, tlsStep before dispatch = some after) ↔ payloadConfig dispatch.2 ≠ none := by
    obtain ⟨source, destination, now⟩ := sent dispatch among
    rw [tlsStep_eq now]
    cases payloadConfig dispatch.2 <;> simp
  rw [Option.isSome_iff_exists]
  constructor
  · rintro ⟨last, result⟩ dispatch among
    obtain ⟨before, stepped⟩ := Runs.exists_step_of_mem result among
    exact (step among before).mp stepped
  · intro safe
    exact Runs.exists_run_of_mem (fun dispatch among before => (step among before).mpr
      (safe dispatch among)) store

/-- A capture is processed to its end unless a payload takes its parser down. -/
theorem exists_runCapture_iff (capture : List (Option SlicedPacket)) :
    (∃ state, runCapture capture = some state) ↔
      ∀ dispatch ∈ trace capture, payloadConfig dispatch.2 ≠ none := by
  rw [← Option.isSome_iff_exists, runCapture, run_captureStep_isSome]
  exact run_tlsStep_isSome_iff (fun _ membership => (mem_dispatches membership).2) .empty

/-! ## The report -/

/-- The loops stop at the first key that is no socket address, in whatever order they go. -/
theorem exists_report_iff (tables : Tables) {orders : Orders} (visits : orders.Visits state)
    (flows : ∀ flow ∈ state.ssh.sessions, ∃ source destination,
      SocketAddr.parse flow.src = some source ∧ SocketAddr.parse flow.dst = some destination) :
    (∃ report, runReport tables orders = some report) ↔
      ∀ key, state.tls.HasKey key → ∃ ip, printedIp key = some ip := by
  refine ⟨?_, fun readable => exists_report tables visits readable flows⟩
  rintro ⟨report, completes⟩ key present
  obtain ⟨first, second, third, fourth, fifth, stages⟩ := exists_stages completes
  rcases present with present | present
  · obtain ⟨values, found⟩ := Finmap.mem_iff.mp present
    obtain ⟨before, after, stepped⟩ := Runs.exists_step_of_mem stages.tlsCiphers
      ((visits.tlsCiphers.mem_iff key values).mpr found)
    simp only [tlsCiphersStep, Option.bind_eq_bind, Option.bind_eq_some_iff] at stepped
    obtain ⟨ip, read, -⟩ := stepped
    exact ⟨ip, read⟩
  · obtain ⟨values, found⟩ := Finmap.mem_iff.mp present
    obtain ⟨before, after, stepped⟩ := Runs.exists_step_of_mem stages.keyshareGroups
      ((visits.keyshareGroups.mem_iff key values).mpr found)
    simp only [keyshareStep, Option.bind_eq_bind, Option.bind_eq_some_iff] at stepped
    obtain ⟨ip, read, -⟩ := stepped
    exact ⟨ip, read⟩

def ToldOverIpv4 (capture : List (Option SlicedPacket)) : Prop :=
  ∀ dispatch ∈ trace capture, ∀ source destination config,
    dispatch.Tells source destination config →
      config.ciphers ≠ [] ∨ config.keyshareGroups ≠ [] → ∃ ip, source.1 = .v4 ip

theorem printedIp_tlsKey_iff (endpoint : Endpoint) :
    (∃ ip, printedIp (tlsKey endpoint.1 endpoint.2) = some ip) ↔ ∃ ip, endpoint.1 = .v4 ip := by
  obtain ⟨ip | ip, port⟩ := endpoint
  · exact iff_of_true ⟨_, printedIp_tlsKey ip port⟩ ⟨ip, rfl⟩
  · refine iff_of_false ?_ (by simp)
    rintro ⟨shown, read⟩
    rw [printedIp, tlsKey, parse_v6_bare] at read
    cases read

theorem readable_iff (result : runCapture capture = some state) :
    (∀ key, state.tls.HasKey key → ∃ ip, printedIp key = some ip) ↔ ToldOverIpv4 capture := by
  have told := told_of_runCapture result
  constructor
  · intro readable dispatch membership source destination config tells nonempty
    rw [← printedIp_tlsKey_iff]
    refine readable _ (nonempty.imp (fun some => ?_) fun some => ?_)
    · exact (told.ciphers.keys _).mpr
        ⟨dispatch, membership, source, destination, config, tells, rfl, some⟩
    · exact (told.groups.keys _).mpr
        ⟨dispatch, membership, source, destination, config, tells, rfl, some⟩
  · rintro ipv4 key (present | present)
    · obtain ⟨dispatch, membership, source, destination, config, tells, rfl, some⟩ :=
        (told.ciphers.keys key).mp present
      exact (printedIp_tlsKey_iff source).mpr
        (ipv4 dispatch membership source destination config tells (.inl some))
    · obtain ⟨dispatch, membership, source, destination, config, tells, rfl, some⟩ :=
        (told.groups.keys key).mp present
      exact (printedIp_tlsKey_iff source).mpr
        (ipv4 dispatch membership source destination config tells (.inr some))

/-- No payload takes its parser down, and the keys of the report can be read. -/
structure Reportable (capture : List (Option SlicedPacket)) : Prop where
  safe : ∀ dispatch ∈ trace capture, payloadConfig dispatch.2 ≠ none
  overIpv4 : ToldOverIpv4 capture

/-- A capture has a report in some order of the loops exactly if it has one in every order: if no
payload takes its parser down, and no IPv6 sender has told of a cipher suite or a group. -/
theorem report_made_iff (tables : Tables) (capture : List (Option SlicedPacket)) :
    ((∃ state, runCapture capture = some state ∧ ∃ orders : Orders, orders.Visits state ∧
      ∃ report, runReport tables orders = some report) ↔ Reportable capture) ∧
    ((∃ state, runCapture capture = some state ∧ ∀ orders : Orders, orders.Visits state →
      ∃ report, runReport tables orders = some report) ↔ Reportable capture) := by
  have flows {state : CaptureState} (result : runCapture capture = some state) :
      ∀ flow ∈ state.ssh.sessions, ∃ source destination,
        SocketAddr.parse flow.src = some source ∧
          SocketAddr.parse flow.dst = some destination := by
    intro flow present
    obtain ⟨a, b, rfl, -⟩ :=
      (consistent_of_run (stores_of_runCapture result).2).named flow present
    obtain ⟨source, src, -⟩ := parse_key a
    obtain ⟨destination, dst, -⟩ := parse_key b
    exact ⟨source, destination, src, dst⟩
  have made {state : CaptureState} (result : runCapture capture = some state) {orders : Orders}
      (visits : orders.Visits state) :
      (∃ report, runReport tables orders = some report) ↔ Reportable capture := by
    rw [exists_report_iff tables visits (flows result), readable_iff result]
    exact ⟨fun ipv4 => ⟨(exists_runCapture_iff capture).mp ⟨state, result⟩, ipv4⟩, (·.overIpv4)⟩
  refine ⟨⟨?_, fun reportable => ?_⟩, ⟨?_, fun reportable => ?_⟩⟩
  · rintro ⟨state, result, orders, visits, reported⟩
    exact (made result visits).mp reported
  · obtain ⟨state, result⟩ := (exists_runCapture_iff capture).mpr reportable.safe
    obtain ⟨orders, visits⟩ := exists_visits state
    exact ⟨state, result, orders, visits, (made result visits).mpr reportable⟩
  · rintro ⟨state, result, reported⟩
    obtain ⟨orders, visits⟩ := exists_visits state
    exact (made result visits).mp (reported orders visits)
  · obtain ⟨state, result⟩ := (exists_runCapture_iff capture).mpr reportable.safe
    exact ⟨state, result, fun orders visits => (made result visits).mpr reportable⟩

end PqcUtils.Dump

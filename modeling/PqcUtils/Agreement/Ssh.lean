import PqcUtils.Dump.Report
import PqcUtils.Dump.Ssh.Hosts
import PqcUtils.Scan.Ssh.Parsing

/-!
# The two programs agree on SSH servers

The scanner checks more of a packet than the dump tool does, so whatever it
accepts the dump tool accepts as well, with the same names. A server that was
seen to send one such packet gets the same verdict from both, as long as the
table calls no algorithm hybrid that it does not also call post-quantum.
-/

namespace PqcUtils.Agreement

open Dump

/-! ## The label of a host -/

/-- The report in the middle of the loop over the capabilities. -/
def Labelled (tables : Tables) (past : List (String × HostCapabilities)) (report : Report) : Prop :=
  (past.map Prod.fst).Nodup → ∀ host caps, (host, caps) ∈ past →
    report.sshHostsPqc.lookup host = some (pqcSupport (kexPqcSupported tables.kexAlgos caps))

theorem Labelled.step {tables : Tables} {past : List (String × HostCapabilities)}
    {before after : Report} {entry : String × HostCapabilities}
    (labelled : Labelled tables past before)
    (stepped : hostCapsStep tables before entry = some after) :
    Labelled tables (past ++ [entry]) after := by
  intro nodup host caps membership
  cases stepped
  rw [List.map_append, List.nodup_append] at nodup
  rw [HashMap.lookup_insert_eq]
  rcases List.mem_append.mp membership with earlier | now
  · have distinct : host ≠ entry.1 :=
      nodup.2.2 host (List.mem_map_of_mem earlier) entry.1 (by simp)
    rw [if_neg distinct]
    exact labelled nodup.1 host caps earlier
  · cases List.mem_singleton.mp now
    rw [if_pos rfl]

theorem exists_labelled (tables : Tables) {hostCaps : HashMap String HostCapabilities}
    {order : List (String × HostCapabilities)} (enumerates : HashMap.Enumerates order hostCaps) :
    ∃ report, Runs.run (hostCapsStep tables) .empty order = some report ∧
      ∀ host caps, hostCaps.lookup host = some caps →
        report.sshHostsPqc.lookup host =
          some (pqcSupport (kexPqcSupported tables.kexAlgos caps)) := by
  have total : ∃ report, Runs.run (hostCapsStep tables) .empty order = some report :=
    Runs.exists_run (fun _ => True) (fun _ _ _ => ⟨_, rfl, trivial⟩) order trivial
  obtain ⟨report, result⟩ := total
  have labelled := Runs.history_of_run (Labelled tables)
    (fun _ _ _ _ labelled stepped => labelled.step stepped) [] (by simp [Labelled]) result
  refine ⟨report, result, fun host caps found => ?_⟩
  exact labelled enumerates.nodup host caps ((enumerates.mem_iff host caps).mpr found)

/-! ## The parsers -/

/-- The dump tool accepts what the scanner accepts, with the same names. -/
theorem parseSshKexinit_of_parseSshMsgKexinit {buf : Bytes} {msg : Scan.KexInitMsg}
    (accepted : Scan.parseSshMsgKexinit buf = .ok msg) :
    parseSshKexinit buf = .ok ⟨msg.kexAlgos⟩ := by
  obtain ⟨message, packetLength, paddingLength, tail, rfl, -, -, -, rfl⟩ :=
    Scan.parseSshMsgKexinit_eq_ok_iff.mp accepted
  apply parseSshKexinit_eq_ok_iff.mpr
  -- The packet length and the padding length are the five bytes the dump tool skips.
  refine ⟨Bytes.ofUInt32 packetLength ++ [paddingLength], message, tail, rfl, ?_, rfl⟩
  simp [Wire.Kexinit.packet]

/-! ## The verdicts -/

def HybridsArePqc (kexAlgos : HashMap String KexAlgo) : Prop :=
  ∀ name algo, kexAlgos.lookup name = some algo → algo.isHybrid = true → algo.pqc = true

/-- The host sent the payload, and no other one was taken for a message of this host. -/
structure OnlyPayload (inputs : List SshInput) (host : String) (payload : Bytes) : Prop where
  sent : ∃ packet source destination, (packet, payload) ∈ inputs ∧
    packet.endpoints = some (source, destination) ∧ source.1.display = host
  only : ∀ input ∈ inputs, ∀ a b kex, Accepted input a b kex → a.1.display = host →
    input.2 = payload

theorem OnlyPayload.onlyMessage {inputs : List SshInput} {host : String} {payload : Bytes}
    {kex : KexInit} (only : OnlyPayload inputs host payload)
    (parsed : parseSshKexinit payload = .ok kex) : OnlyMessage inputs host kex where
  sent := by
    obtain ⟨packet, source, destination, membership, endpoints, same⟩ := only.sent
    exact ⟨_, membership, source, destination, ⟨parsed, endpoints⟩, same⟩
  only input membership a b other accepted same := by
    have payload := only.only input membership a b other accepted same
    have again := accepted.1
    rw [payload, parsed, Outcome.ok.injEq] at again
    exact again.symm

/-- Classifying the list and classifying the set of its names come to the same. -/
theorem kexPqcSupported_iff_classifyKex {kexAlgos : HashMap String KexAlgo}
    (hybrids : HybridsArePqc kexAlgos) {caps : HostCapabilities} {names : List String}
    (same : ∀ alg, alg ∈ caps.supportedKex ↔ alg ∈ names) :
    kexPqcSupported kexAlgos caps = (Scan.classifyKex kexAlgos names).pqcSupported := by
  rw [Scan.classifyKex_eq, Bool.eq_iff_iff, kexPqcSupported, decide_eq_true_iff, List.any_eq_true]
  simp only [Scan.knownAs, Option.any_eq_true, beq_true, same]
  apply exists_congr
  intro alg
  apply and_congr_right
  rintro -
  apply exists_congr
  intro algo
  apply and_congr_right
  intro found
  rw [Bool.or_eq_true]
  exact ⟨fun either => either.elim id (hybrids alg algo found), .inl⟩

theorem sshScanTarget_of_kexinit (kexAlgos : HashMap String KexAlgo) {buf : Bytes}
    {msg : Scan.KexInitMsg} (accepted : Scan.parseSshMsgKexinit buf = .ok msg)
    {connection : Scan.Connection} {reads : List Scan.ReadEvent}
    (exchanged : Scan.sshEchobackIdstring connection.write connection.reads =
      .ok (.received buf :: reads)) (target : Scan.Target) (addr : String) :
    ∃ result, Scan.sshScanTarget kexAlgos target (.ok (addr, connection)) = some result ∧
      result.pqcSupported = (Scan.classifyKex kexAlgos msg.kexAlgos).pqcSupported := by
  have received : Scan.sshRecvKexinit (.received buf :: reads) = .ok msg := by
    cases buf with
    | nil => simp [Scan.parseSshMsgKexinit, Outcome.rejectIf] at accepted
    | cons byte rest => simp [Scan.sshRecvKexinit, accepted]
  simp [Scan.sshScanTarget, exchanged, received, Scan.ScanResult.pqcSupported]

/-- For every packet the scanner accepts, the dump tool reads the same names, and both programs
say the same about a host that sent it and nothing else. -/
theorem kexinit_verdicts_agree {buf : Bytes} {msg : Scan.KexInitMsg}
    (accepted : Scan.parseSshMsgKexinit buf = .ok msg) :
    parseSshKexinit buf = .ok ⟨msg.kexAlgos⟩ ∧
    ∀ (tables : Tables) (inputs : List SshInput) (host : String) (target : Scan.Target)
      (addr : String) (connection : Scan.Connection) (reads : List Scan.ReadEvent),
      HybridsArePqc tables.kexAlgos → OnlyPayload inputs host buf →
      Scan.sshEchobackIdstring connection.write connection.reads = .ok (.received buf :: reads) →
      ∃ result store,
        Scan.sshScanTarget tables.kexAlgos target (.ok (addr, connection)) = some result ∧
        runSsh inputs = some store ∧
        ∀ order, HashMap.Enumerates order store.hostCaps →
          ∃ report, Runs.run (hostCapsStep tables) .empty order = some report ∧
            (report.sshHostsPqc.lookup host = some pqcSupportedText ↔
              result.pqcSupported = true) := by
  have parsed := parseSshKexinit_of_parseSshMsgKexinit accepted
  refine ⟨parsed, ?_⟩
  intro tables inputs host target addr connection reads hybrids only exchanged
  obtain ⟨result, scanned, verdict⟩ :=
    sshScanTarget_of_kexinit tables.kexAlgos accepted exchanged target addr
  obtain ⟨store, recorded⟩ := exists_runSsh inputs
  refine ⟨result, store, scanned, recorded, fun order enumerates => ?_⟩
  obtain ⟨caps, found, same⟩ := hostCaps_of_onlyMessage recorded (only.onlyMessage parsed)
  obtain ⟨report, visited, labels⟩ := exists_labelled tables enumerates
  refine ⟨report, visited, ?_⟩
  rw [labels host caps found, Option.some.injEq, pqcSupport_eq_iff, verdict,
    kexPqcSupported_iff_classifyKex hybrids same]

/-! ## One server -/

def smallPacket : Bytes :=
  [0, 0, 0, 66, 0, 20] ++ List.replicate 16 0 ++ [0, 0, 0, 3, 97, 44, 98] ++
    List.replicate 36 0 ++ List.replicate 5 0

def smallInput : SshInput :=
  let host : Net.Ipv4Addr := ⟨127, 0, 0, 1⟩
  (⟨some (.ipv4 host host), some (.tcp ⟨22, 50000, 0, smallPacket⟩)⟩, smallPacket)

def smallTables : Tables where
  kexAlgos := Finmap.insert "a" ⟨true, some true, none, none⟩ ∅
  groups := ∅
  cipherSuites := ∅

theorem kexinit_verdicts_agree_small :
    Scan.parseSshMsgKexinit smallPacket = .ok ⟨["a", "b"], [""]⟩ ∧
      ∃ result store,
        Scan.sshScanTarget smallTables.kexAlgos ⟨"127.0.0.1", 22⟩
          (.ok ("127.0.0.1:22", ⟨[.received Scan.sshPrefix, .received smallPacket], .written⟩)) =
            some result ∧
        runSsh [smallInput] = some store ∧
        ∀ order, HashMap.Enumerates order store.hostCaps →
          ∃ report, Runs.run (hostCapsStep smallTables) .empty order = some report ∧
            (report.sshHostsPqc.lookup "127.0.0.1" = some pqcSupportedText ↔
              result.pqcSupported = true) := by
  have accepted : Scan.parseSshMsgKexinit smallPacket = .ok ⟨["a", "b"], [""]⟩ := by
    decide +kernel
  have hybrids : HybridsArePqc smallTables.kexAlgos := by
    intro name algo found
    rw [smallTables, HashMap.lookup_insert_eq] at found
    split at found
    · cases found
      exact id
    · simp at found
  have only : OnlyPayload [smallInput] "127.0.0.1" smallPacket := by
    constructor
    · exact ⟨smallInput.1, _, _, List.mem_singleton_self _, rfl, by decide +kernel⟩
    · intro input membership
      cases List.mem_singleton.mp membership
      intros
      rfl
  exact ⟨accepted, (kexinit_verdicts_agree accepted).2 smallTables [smallInput] "127.0.0.1" _ _ _ []
    hybrids only (by decide +kernel)⟩

end PqcUtils.Agreement

import PqcUtils.Agreement.Ssh
import PqcUtils.Dump.Conversations
import PqcUtils.Dump.Report.Contents
import PqcUtils.Scan.Ssh.Probe

/-!
# An SSH scan in a capture

The scanner sends the line of the server back and then listens. So a capture of the
scan holds one key exchange message, that of the server. The dump tool lists what the
scanner has found in it, and sees no session, because one side stays silent.
-/

namespace PqcUtils.Agreement

open Dump Net

/-! ## The conversation -/

/-- `2.0-`, the version in an identification line. -/
def versionPrefix : Bytes := [50, 46, 48, 45]

/-- The server identifies itself, the scanner sends the line back, the server sends its packet. -/
def scanTurns (stream : Scan.ServerStream) : List Turn :=
  [⟨false, stream.identification⟩, ⟨true, stream.identification⟩, ⟨false, stream.packet⟩]

section Turns

variable {stream : Scan.ServerStream}

theorem parseSshKexinit_identification (version : versionPrefix <+: stream.software) :
    parseSshKexinit stream.identification = .err () := by
  obtain ⟨rest, software⟩ := version
  have found : stream.identification[5]? = some 46 := by
    rw [Scan.ServerStream.identification, ← software]
    rfl
  exact parseSshKexinit_of_other found (by decide)

theorem parseSshKexinit_packet (stream : Scan.ServerStream) :
    parseSshKexinit stream.packet = .ok ⟨stream.message.kexAlgorithms⟩ := by
  have small : stream.packet.length < 2 ^ 32 := by
    have bound := stream.length_bytes
    rw [Scan.ServerStream.bytes, List.length_append] at bound
    omega
  exact parseSshKexinit_of_parseSshMsgKexinit ((Scan.parseSshMsgKexinit_of_small small).mpr
    ⟨stream.message, stream.isPacketOf_packet, rfl⟩)

variable {row : List Dispatch} {scanner : Sender}

theorem accepted_of_overheard (version : versionPrefix <+: stream.software)
    (overheard : Overheard row scanner (scanTurns stream)) {dispatch : Dispatch}
    (membership : dispatch ∈ row) {source destination : Endpoint} {kex : KexInit}
    (accepted : Accepted dispatch source destination kex) (long : 6 ≤ dispatch.2.length)
    (here : s(source, destination) = scanner.connection) :
    source = scanner.reverse.endpoint ∧ kex = ⟨stream.message.kexAlgorithms⟩ := by
  obtain ⟨turn, among, rfl, payload⟩ :=
    overheard.only dispatch membership source destination ⟨accepted.2, long⟩ here
  have parsed := accepted.1
  rw [payload] at parsed
  simp only [scanTurns, List.mem_cons, List.not_mem_nil, or_false] at among
  rcases among with rfl | rfl | rfl
  · rw [parseSshKexinit_identification version] at parsed
    cases parsed
  · rw [parseSshKexinit_identification version] at parsed
    cases parsed
  · rw [parseSshKexinit_packet, Outcome.ok.injEq] at parsed
    exact ⟨rfl, parsed.symm⟩

theorem firstMessage_of_overheard (version : versionPrefix <+: stream.software)
    (overheard : Overheard row scanner (scanTurns stream))
    (long : ∀ dispatch ∈ row, 6 ≤ dispatch.2.length) :
    firstMessage row scanner.reverse.endpoint scanner.endpoint =
      some ⟨stream.message.kexAlgorithms⟩ := by
  obtain ⟨dispatch, membership, sent, payload⟩ :=
    overheard.every ⟨false, stream.packet⟩ (by simp [scanTurns])
  have accepted : Accepted dispatch scanner.reverse.endpoint scanner.endpoint
      ⟨stream.message.kexAlgorithms⟩ := by
    refine ⟨?_, sent.endpoints⟩
    rw [payload]
    exact parseSshKexinit_packet stream
  obtain ⟨kex, first⟩ :=
    Option.isSome_iff_exists.mp (firstMessage_isSome_iff.mpr ⟨dispatch, membership, _, accepted⟩)
  obtain ⟨other, among, accepted'⟩ := exists_accepted_of_firstMessage first
  rw [first, (accepted_of_overheard version overheard among accepted' (long other among)
    Sym2.eq_swap).2]

theorem firstMessage_eq_none_of_overheard (version : versionPrefix <+: stream.software)
    (overheard : Overheard row scanner (scanTurns stream))
    (distinct : scanner.endpoint ≠ scanner.reverse.endpoint)
    (long : ∀ dispatch ∈ row, 6 ≤ dispatch.2.length) :
    firstMessage row scanner.endpoint scanner.reverse.endpoint = none := by
  refine Option.eq_none_iff_forall_ne_some.mpr fun kex first => ?_
  obtain ⟨dispatch, among, accepted⟩ := exists_accepted_of_firstMessage first
  exact distinct (accepted_of_overheard version overheard among accepted (long dispatch among)
    rfl).1

end Turns

/-! ## What both programs say -/

theorem mem_classes_iff {kexAlgos : HashMap String KexAlgo} {names : List String} {alg : String} :
    alg ∈ (Scan.classifyKex kexAlgos names).pqcAlgos ++
        (Scan.classifyKex kexAlgos names).nonpqcAlgos ↔
      alg ∈ names ∧ ∃ algo, kexAlgos.lookup alg = some algo := by
  rw [Scan.classifyKex_eq, List.mem_append, List.mem_filter, List.mem_filter, ← and_or_left]
  refine and_congr_right fun _ => ?_
  cases known : kexAlgos.lookup alg with
  | none => simp [Scan.knownAs, known]
  | some algo => cases pqc : algo.pqc <;> simp [Scan.knownAs, known, pqc]

theorem mem_kexDetails {kexAlgos : HashMap String KexAlgo} {alg : String}
    {details : AlgorithmDetails} (among : details ∈ kexDetails kexAlgos alg) :
    details.name = alg ∧ ∃ algo, kexAlgos.lookup alg = some algo := by
  cases known : kexAlgos.lookup alg with
  | none => simp [kexDetails, known] at among
  | some algo =>
    simp only [kexDetails, known, Finset.mem_singleton] at among
    exact ⟨by rw [among], algo, rfl⟩

theorem exists_kexDetails {kexAlgos : HashMap String KexAlgo} {alg : String} {algo : KexAlgo}
    (known : kexAlgos.lookup alg = some algo) : ∃ details, details ∈ kexDetails kexAlgos alg := by
  simp [kexDetails, known]

/-- The address of the server has no other connection in the capture. -/
def OnlyConnection (capture : List (Option SlicedPacket)) (scanner : Sender) : Prop :=
  ∀ sliced ∈ capture, ∀ source destination, connectionOf sliced = some s(source, destination) →
    source.1 = scanner.destination → s(source, destination) = scanner.connection

/-- What a scan has found is what a report says of the server. -/
structure SeenInReport (tables : Tables) (capture : List (Option SlicedPacket)) (scanner : Sender)
    (classes : Scan.KexClasses) (report : Report) : Prop where
  listed : scanner.destination.display ∈ report.sshHosts
  algos : ∀ alg ∈ classes.pqcAlgos ++ classes.nonpqcAlgos,
    ∃ details ∈ report.sshHostsPqcAlgos.members scanner.destination.display, details.name = alg
  supported : classes.pqcSupported = true →
    scanner.destination.display ∈ report.pqcHosts ∧
      report.sshHostsPqc.lookup scanner.destination.display = some pqcSupportedText
  onlyAlgos : OnlyConnection capture scanner →
    ∀ details ∈ report.sshHostsPqcAlgos.members scanner.destination.display,
      details.name ∈ classes.pqcAlgos ++ classes.nonpqcAlgos
  onlySupported : OnlyConnection capture scanner → HybridsArePqc tables.kexAlgos →
    report.sshHostsPqc.lookup scanner.destination.display = some pqcSupportedText →
      classes.pqcSupported = true
  noSession : ∀ ip, ∀ shown ∈ report.sshSessionsResults.members ip, ∀ a b : Endpoint,
    shown.source = a.1.display → shown.sourcePort = a.2 → shown.destination = b.1.display →
      shown.destinationPort = b.2 → s(a, b) ≠ scanner.connection

section Report

variable {stream : Scan.ServerStream} {scanner : Sender} {tables : Tables}
  {capture sorted : List (Option SlicedPacket)} {report : Report}

theorem kex_of_onlyConnection (version : versionPrefix <+: stream.software)
    (overheard : Overheard (trace sorted) scanner (scanTurns stream))
    (same : ∀ sliced ∈ sorted, sliced ∈ capture) (only : OnlyConnection capture scanner)
    {a b : Endpoint} {kex : KexInit} (named : a.1.display = scanner.destination.display)
    (first : firstMessage (trace sorted) a b = some kex) :
    kex = ⟨stream.message.kexAlgorithms⟩ := by
  obtain ⟨dispatch, membership, accepted⟩ := exists_accepted_of_firstMessage first
  obtain ⟨among, source, destination, sent⟩ := mem_dispatches membership
  have on := connectionOf_of_mem_dispatches membership ⟨accepted.2, sent.long⟩
  have here := only _ (same _ among) a b on (display_injective named)
  exact (accepted_of_overheard version overheard membership accepted sent.long here).2

theorem seenInReport (version : versionPrefix <+: stream.software)
    (overheard : Overheard (trace sorted) scanner (scanTurns stream))
    (distinct : scanner.endpoint ≠ scanner.reverse.endpoint)
    (same : ∀ sliced ∈ sorted, sliced ∈ capture) (reflects : report.Reflects tables sorted) :
    SeenInReport tables capture scanner
      (Scan.classifyKex tables.kexAlgos stream.message.kexAlgorithms) report := by
  have long : ∀ dispatch ∈ trace sorted, 6 ≤ dispatch.2.length := by
    intro dispatch membership
    obtain ⟨-, source, destination, sent⟩ := mem_dispatches membership
    exact sent.long
  have first := firstMessage_of_overheard version overheard long
  have silent := firstMessage_eq_none_of_overheard version overheard distinct long
  have listed : scanner.destination.display ∈ report.sshHosts := by
    obtain ⟨dispatch, membership, accepted⟩ := exists_accepted_of_firstMessage first
    exact (reflects.sshHosts _).mpr
      ⟨_, rfl, dispatch, membership, _, _, _, accepted, rfl⟩
  have known := @Scan.classifyKex_eq tables.kexAlgos stream.message.kexAlgorithms
  constructor
  · exact listed
  · intro alg among
    obtain ⟨named, algo, found⟩ := mem_classes_iff.mp among
    obtain ⟨details, shown⟩ := exists_kexDetails found
    exact ⟨details, (reflects.sshAlgos _ _).mpr ⟨_, _, _, rfl, first, alg, named, shown⟩,
      (mem_kexDetails shown).1⟩
  · intro supported
    rw [known, List.any_eq_true] at supported
    obtain ⟨alg, named, supported⟩ := supported
    simp only [Scan.knownAs, Option.any_eq_true, beq_true] at supported
    obtain ⟨algo, found, pqc⟩ := supported
    have lists : ListsPqc tables (trace sorted) scanner.destination.display :=
      ⟨_, _, _, rfl, first, alg, named, algo, found, by simpa using .inl pqc⟩
    exact ⟨(reflects.pqcHosts _).mpr (.inl lists), (reflects.sshLabels _ listed).mpr lists⟩
  · intro only details among
    obtain ⟨a, b, kex, named, heard, alg, offered, shown⟩ := (reflects.sshAlgos _ _).mp among
    obtain rfl := kex_of_onlyConnection version overheard same only named heard
    obtain ⟨rfl, found⟩ := mem_kexDetails shown
    exact mem_classes_iff.mpr ⟨offered, found⟩
  · intro only hybrids label
    obtain ⟨a, b, kex, named, heard, alg, offered, algo, found, pqc⟩ :=
      (reflects.sshLabels _ listed).mp label
    obtain rfl := kex_of_onlyConnection version overheard same only named heard
    have pqc : algo.pqc = true :=
      (Bool.or_eq_true _ _ ▸ pqc).elim id (hybrids alg algo found)
    rw [known, List.any_eq_true]
    exact ⟨alg, offered, by simp [Scan.knownAs, found, pqc]⟩
  · intro ip shown among a b source sourcePort destination destinationPort here
    obtain ⟨client, server, kex, algo, agreed, -, -, rfl⟩ := (reflects.sshSessions _ _).mp among
    obtain rfl : client = a := Prod.ext (display_injective source) sourcePort
    obtain rfl : server = b := Prod.ext (display_injective destination) destinationPort
    obtain ⟨offer, answer, offered, answered, -⟩ := agreed.first
    rcases Sym2.eq_iff.mp here with ⟨rfl, rfl⟩ | ⟨rfl, rfl⟩
    · rw [silent] at offered
      cases offered
    · rw [silent] at answered
      cases answered

end Report

/-- Each segment is read by itself, so the scan finds what the server offers. -/
theorem sshScanTarget_of_delivers (kexAlgos : HashMap String KexAlgo) (stream : Scan.ServerStream)
    {reads : List Scan.ReadEvent}
    (delivers : Scan.Delivers reads [stream.identification, stream.packet])
    (target : Scan.Target) (addr : String) :
    let classes := Scan.classifyKex kexAlgos stream.message.kexAlgorithms
    Scan.sshScanTarget kexAlgos target (.ok (addr, ⟨reads, .written⟩)) =
      some (.ssh target (some addr) none classes.pqcSupported (some classes.pqcAlgos)
        (some classes.nonpqcAlgos)) := by
  have identified : Scan.sshPrefix <+: stream.identification := by
    simp [Scan.ServerStream.identification]
  obtain ⟨left, exchanged, later⟩ := Scan.exists_sshEchobackIdstring delivers
    (by simp [Scan.ServerStream.identification, Scan.sshPrefix]) identified
  have nonempty : ∀ chunk ∈ [stream.packet], chunk ≠ [] := by
    intro chunk among
    have length := stream.length_packet
    rw [List.mem_singleton.mp among]
    apply List.ne_nil_of_length_pos
    omega
  have small : stream.packet.length < 2 ^ 32 := by
    have bound := stream.length_bytes
    rw [Scan.ServerStream.bytes, List.length_append] at bound
    omega
  have received : Scan.sshRecvKexinit left = .ok (Scan.kexInitMsgOf stream.message) :=
    (Scan.sshRecvKexinit_of_delivers later nonempty).mpr ⟨stream.packet, [], rfl,
      (Scan.parseSshMsgKexinit_of_small small).mpr
        ⟨stream.message, stream.isPacketOf_packet, rfl⟩⟩
  simp [Scan.sshScanTarget, exchanged, received, Scan.kexInitMsgOf]

/-- Of an SSH scan and a capture of it, whatever else was captured: the report lists what the scan
has found, and knows of no session on the connection. -/
theorem captured_ssh_scan (tables : Tables) {stream : Scan.ServerStream}
    (version : versionPrefix <+: stream.software) {scanner : Sender}
    {capture : List (Option SlicedPacket)}
    (conversed : Conversed capture scanner (scanTurns stream)) {state : CaptureState}
    (result : runCapture capture = some state) (ipv4 : Ipv4Only capture)
    {reads : List Scan.ReadEvent}
    (delivers : Scan.Delivers reads [stream.identification, stream.packet])
    (target : Scan.Target) (addr : String) (orders : Orders) (visits : orders.Visits state) :
    ∃ classes report, Scan.sshScanTarget tables.kexAlgos target (.ok (addr, ⟨reads, .written⟩)) =
        some (.ssh target (some addr) none classes.pqcSupported (some classes.pqcAlgos)
          (some classes.nonpqcAlgos)) ∧
      runReport tables orders = some report ∧
      SeenInReport tables capture scanner classes report := by
  obtain ⟨sorted, recorded, same, overheard⟩ := conversed.exists_overheard
  have ipv4' : Ipv4Only sorted := fun packet source destination among =>
    ipv4 packet source destination ((same _).mp among)
  obtain ⟨report, made⟩ := exists_report_of_ipv4Only result ipv4 tables visits
  have reflects := reflects_of_runReport tables (recorded.trans result) ipv4' visits made
  exact ⟨_, report, sshScanTarget_of_delivers tables.kexAlgos stream delivers target addr, made,
    seenInReport version overheard conversed.distinct (fun sliced => (same sliced).mp) reflects⟩

/-! ## A scan of one server -/

def sshScanner : Sender := { fromClient with sourcePort := 50000, destinationPort := 22 }

/-- The scan, and a packet of another connection before its end. -/
def sshCaptured : List (Option SlicedPacket) :=
  let packets := sshScanner.conversation (fun _ => 1) (scanTurns Scan.smallStream)
  packets.take 2 ++ [some (localClient.packet 1 (List.replicate 8 0))] ++ packets.drop 2

theorem captured_ssh_scan_small :
    ∃ state orders, runCapture sshCaptured = some state ∧ orders.Visits state ∧
      ∃ classes report,
        Scan.sshScanTarget smallTables.kexAlgos ⟨"localhost", 22⟩ (.ok ("10.0.0.2:22",
          ⟨[.received Scan.smallStream.identification, .wouldBlock,
            .received Scan.smallStream.packet], .written⟩)) =
          some (.ssh ⟨"localhost", 22⟩ (some "10.0.0.2:22") none classes.pqcSupported
            (some classes.pqcAlgos) (some classes.nonpqcAlgos)) ∧
        runReport smallTables orders = some report ∧
        SeenInReport smallTables sshCaptured sshScanner classes report := by
  have completes : (runCapture sshCaptured).isSome := by decide +kernel
  obtain ⟨state, result⟩ := Option.isSome_iff_exists.mp completes
  obtain ⟨orders, visits⟩ := exists_visits state
  have conversed : Conversed sshCaptured sshScanner (scanTurns Scan.smallStream) :=
    ⟨⟨fun _ => 1, by decide +kernel⟩, by decide +kernel, by decide⟩
  have ipv4 : Ipv4Only sshCaptured :=
    ipv4Only_of_forall (List.forall_mem_cons.mpr ⟨⟨_, _, _, rfl⟩,
      List.forall_mem_cons.mpr ⟨⟨_, _, _, rfl⟩, List.forall_mem_cons.mpr ⟨⟨_, _, _, rfl⟩,
        List.forall_mem_singleton.mpr ⟨_, _, _, rfl⟩⟩⟩⟩)
  exact ⟨state, orders, result, visits, captured_ssh_scan smallTables (by decide) conversed result
    ipv4 (by simp [Scan.Delivers]) _ _ orders visits⟩

end PqcUtils.Agreement

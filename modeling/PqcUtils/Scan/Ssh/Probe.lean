import PqcUtils.Scan.Ssh.Parsing

/-!
# The probe and the cuts of the stream

A server sends an identification line and one packet. The probe reads twice and
keeps nothing between the reads, so what it obtains depends on where the network
cuts the stream: the packet has to come alone, in one piece, and second.
-/

namespace PqcUtils.Scan

open Bytes Wire

/-! ## What the server sends -/

structure ServerStream where
  /-- The identification line behind `SSH-`, without its line feed. -/
  software : Bytes
  message : Kexinit
  firstKexPacketFollows : UInt8
  padding : Bytes
  isLine : 10 ∉ software
  fitsPadding : padding.length < 2 ^ 8
  fitsBuffer : (sshPrefix ++ software ++ [10]).length + 5 + message.encode.length + 5 +
    padding.length ≤ 4096

namespace ServerStream

def identification (stream : ServerStream) : Bytes := sshPrefix ++ stream.software ++ [10]

def packet (stream : ServerStream) : Bytes :=
  stream.message.packet (.ofNat (1 + stream.message.encode.length + 5 + stream.padding.length))
    (.ofNat stream.padding.length)
    (stream.firstKexPacketFollows :: [0, 0, 0, 0] ++ stream.padding)

def bytes (stream : ServerStream) : Bytes := stream.identification ++ stream.packet

theorem length_packet (stream : ServerStream) :
    stream.packet.length = 10 + stream.message.encode.length + stream.padding.length := by
  rw [packet, Kexinit.length_packet]
  simp
  omega

theorem length_bytes (stream : ServerStream) : stream.bytes.length ≤ 4096 := by
  have fits := stream.fitsBuffer
  rw [bytes, List.length_append, length_packet, identification]
  omega

theorem isPrefix_bytes (stream : ServerStream) : sshPrefix <+: stream.bytes := by
  simp [bytes, identification]

theorem isPacketOf_packet (stream : ServerStream) : IsPacketOf stream.message stream.packet := by
  have fits := stream.fitsBuffer
  have inRange : 1 + stream.message.encode.length + 5 + stream.padding.length < 2 ^ 32 := by omega
  have number := UInt32.toNat_ofNat_of_lt' inRange
  have padding : (UInt8.ofNat stream.padding.length).toNat = stream.padding.length :=
    UInt8.toNat_ofNat_of_lt' stream.fitsPadding
  refine ⟨_, _, _, rfl, ?_, ?_⟩
  · rw [number, length_packet]
    omega
  · rw [padding]
    simp
    omega

/-- The reads, none of them empty, bring the stream in order. -/
structure CutInto (stream : ServerStream) (chunks : List Bytes) : Prop where
  whole : chunks.flatten = stream.bytes
  nonempty : ∀ chunk ∈ chunks, chunk ≠ []

/-- The first read identifies the server, and the second one is a packet with the server's list
and nothing else. -/
def PacketComesSecond (stream : ServerStream) (chunks : List Bytes) : Prop :=
  ∃ first second rest, chunks = first :: second :: rest ∧ 4 ≤ first.length ∧
    ∃ message, IsPacketOf message second ∧
      message.kexAlgorithms = stream.message.kexAlgorithms

end ServerStream

/-! ## What the probe obtains -/

/-- The reads bring the chunks, with any number of fruitless attempts between them. -/
def Delivers (reads : List ReadEvent) (chunks : List Bytes) : Prop :=
  reads.filter (· ≠ .wouldBlock) = chunks.map .received

def ObtainsNames (connection : Connection) (names : List String) : Prop :=
  ∃ reads msg, sshEchobackIdstring connection.write connection.reads = .ok reads ∧
    sshRecvKexinit reads = .ok msg ∧ msg.kexAlgos = names

theorem delivers_cons_iff {event : ReadEvent} {reads : List ReadEvent} {chunks : List Bytes} :
    Delivers (event :: reads) chunks ↔
      event = .wouldBlock ∧ Delivers reads chunks ∨
        ∃ chunk rest, event = .received chunk ∧ chunks = chunk :: rest ∧ Delivers reads rest := by
  unfold Delivers
  by_cases fruitless : event = .wouldBlock
  · simp [fruitless]
  · rw [List.filter_cons_of_pos (by simpa using fruitless)]
    cases chunks with
    | nil => simp [fruitless]
    | cons chunk rest => simp [fruitless, eq_comm]

theorem sshRecvKexinit_of_delivers {reads : List ReadEvent} {chunks : List Bytes}
    (delivers : Delivers reads chunks) (nonempty : ∀ chunk ∈ chunks, chunk ≠ [])
    {msg : KexInitMsg} :
    sshRecvKexinit reads = .ok msg ↔
      ∃ first rest, chunks = first :: rest ∧ parseSshMsgKexinit first = .ok msg := by
  induction reads generalizing chunks with
  | nil =>
    cases chunks with
    | nil => simp [sshRecvKexinit]
    | cons chunk rest => simp [Delivers] at delivers
  | cons event reads ih =>
    rcases delivers_cons_iff.mp delivers with ⟨rfl, later⟩ | ⟨chunk, rest, rfl, rfl, -⟩
    · rw [sshRecvKexinit, ih later nonempty]
    · cases chunk with
      | nil => simp at nonempty
      | cons byte bytes =>
        cases parsed : parseSshMsgKexinit (byte :: bytes) <;> simp [sshRecvKexinit, parsed]

theorem sshEchobackIdstring_of_delivers {reads left : List ReadEvent} {chunks : List Bytes}
    (delivers : Delivers reads chunks) (nonempty : ∀ chunk ∈ chunks, chunk ≠ [])
    (exchanged : sshEchobackIdstring .written reads = .ok left) :
    ∃ first rest, chunks = first :: rest ∧ 4 ≤ first.length ∧ sshPrefix <+: first ∧
      Delivers left rest := by
  induction reads generalizing chunks with
  | nil => simp [sshEchobackIdstring] at exchanged
  | cons event reads ih =>
    rcases delivers_cons_iff.mp delivers with ⟨rfl, later⟩ | ⟨chunk, rest, rfl, rfl, later⟩
    · exact ih later nonempty exchanged
    · cases chunk with
      | nil => simp at nonempty
      | cons byte bytes =>
        simp only [sshEchobackIdstring] at exchanged
        split at exchanged
        · cases exchanged
        · next identified =>
          cases exchanged
          simp only [not_or, not_not, not_lt] at identified
          exact ⟨_, _, rfl, identified.1, identified.2, later⟩

theorem exists_sshEchobackIdstring {reads : List ReadEvent} {first : Bytes} {rest : List Bytes}
    (delivers : Delivers reads (first :: rest)) (long : 4 ≤ first.length)
    (identified : sshPrefix <+: first) :
    ∃ left, sshEchobackIdstring .written reads = .ok left ∧ Delivers left rest := by
  induction reads with
  | nil => simp [Delivers] at delivers
  | cons event reads ih =>
    rcases delivers_cons_iff.mp delivers with ⟨rfl, later⟩ | ⟨chunk, rest', rfl, same, later⟩
    · exact ih later
    · cases same
      cases first with
      | nil => simp at long
      | cons byte bytes =>
        refine ⟨reads, ?_, later⟩
        simp only [sshEchobackIdstring]
        rw [if_neg (by simp only [not_or, not_not, not_lt]; exact ⟨long, identified⟩)]

/-- The probe obtains the server's list exactly when a packet with it is the second chunk. -/
theorem obtainsNames_iff (stream : ServerStream) {chunks : List Bytes}
    (cut : stream.CutInto chunks) {reads : List ReadEvent} (delivers : Delivers reads chunks) :
    ObtainsNames ⟨reads, .written⟩ stream.message.kexAlgorithms ↔
      stream.PacketComesSecond chunks := by
  have small (chunk : Bytes) (membership : chunk ∈ chunks) : chunk.length < 2 ^ 32 := by
    have inside := List.Sublist.length_le (List.sublist_flatten_of_mem membership)
    have bound := stream.length_bytes
    rw [cut.whole] at inside
    omega
  constructor
  · rintro ⟨left, msg, exchanged, received, names⟩
    obtain ⟨first, rest, rfl, long, -, later⟩ :=
      sshEchobackIdstring_of_delivers delivers cut.nonempty exchanged
    have nonempty : ∀ chunk ∈ rest, chunk ≠ [] :=
      fun chunk membership => cut.nonempty chunk (List.mem_cons_of_mem _ membership)
    obtain ⟨second, rest, rfl, parsed⟩ :=
      (sshRecvKexinit_of_delivers later nonempty).mp received
    obtain ⟨message, isPacket, rfl⟩ :=
      (parseSshMsgKexinit_of_small (small second (by simp))).mp parsed
    exact ⟨first, second, rest, rfl, long, message, isPacket, names⟩
  · rintro ⟨first, second, rest, rfl, long, message, isPacket, names⟩
    have identified : sshPrefix <+: first := by
      have initial : first <+: stream.bytes := by
        rw [← cut.whole, List.flatten_cons]
        exact List.prefix_append _ _
      exact List.prefix_of_prefix_length_le stream.isPrefix_bytes initial long
    obtain ⟨left, exchanged, later⟩ := exists_sshEchobackIdstring delivers long identified
    have nonempty : ∀ chunk ∈ second :: rest, chunk ≠ [] :=
      fun chunk membership => cut.nonempty chunk (List.mem_cons_of_mem _ membership)
    have parsed : parseSshMsgKexinit second = .ok (kexInitMsgOf message) :=
      (parseSshMsgKexinit_of_small (small second (by simp))).mpr ⟨message, isPacket, rfl⟩
    refine ⟨left, kexInitMsgOf message, exchanged, ?_, names⟩
    exact (sshRecvKexinit_of_delivers later nonempty).mpr ⟨second, rest, rfl, parsed⟩

/-! ## One server -/

/-- A server that offers `a` and `b`. Its packet is 80 bytes long. -/
def smallStream : ServerStream where
  software := [50, 46, 48, 45, 115, 13]
  message := {
    cookie := List.replicate 16 0
    kexNames := "a,b"
    otherNames := List.replicate 9 ""
    length_cookie := rfl
    length_otherNames := rfl
    fits := by decide +kernel }
  firstKexPacketFollows := 0
  padding := List.replicate 10 0
  isLine := by decide
  fitsPadding := by decide
  fitsBuffer := by decide +kernel

def smallTable : HashMap String KexAlgo := Finmap.insert "a" ⟨true, none, none, none⟩ ∅

/-- When line and packet come in one read the packet is lost with the line, and the server is
reported as one without post-quantum algorithms. -/
theorem names_lost_in_one_read :
    smallStream.CutInto [smallStream.bytes] ∧
      Delivers [.received smallStream.bytes] [smallStream.bytes] ∧
      ¬ObtainsNames ⟨[.received smallStream.bytes], .written⟩
        smallStream.message.kexAlgorithms ∧
      (classifyKex smallTable smallStream.message.kexAlgorithms).pqcSupported = true ∧
      sshScanTarget smallTable ⟨"localhost", 22⟩
          (.ok ("127.0.0.1:22", ⟨[.received smallStream.bytes], .written⟩)) =
        some (.ssh ⟨"localhost", 22⟩ (some "127.0.0.1:22") none false (some []) (some [])) := by
  refine ⟨⟨by simp, by decide +kernel⟩, by simp [Delivers], ?_, by decide +kernel,
    by decide +kernel⟩
  rintro ⟨reads, msg, exchanged, received, -⟩
  have nothingLeft : sshEchobackIdstring .written [.received smallStream.bytes] = .ok [] := by
    decide +kernel
  rw [nothingLeft, Except.ok.injEq] at exchanged
  subst exchanged
  simp [sshRecvKexinit] at received

theorem names_obtained_in_two_reads :
    ObtainsNames ⟨[.received smallStream.identification, .wouldBlock,
      .received smallStream.packet], .written⟩ smallStream.message.kexAlgorithms := by
  have cut : smallStream.CutInto [smallStream.identification, smallStream.packet] :=
    ⟨by simp [ServerStream.bytes], by decide +kernel⟩
  have delivers : Delivers [.received smallStream.identification, .wouldBlock,
      .received smallStream.packet] [smallStream.identification, smallStream.packet] := by
    simp [Delivers]
  exact (obtainsNames_iff smallStream cut delivers).mpr
    ⟨_, _, [], rfl, by decide, smallStream.message, smallStream.isPacketOf_packet, rfl⟩

end PqcUtils.Scan

import PqcUtils.Scan.Report.Aggregation

/-!
# Failed probes

A probe can fail in three stages. The first two return a result with an error. The
result of the last one has no error, so that the report counts the target as one
without post-quantum algorithms.
-/

namespace PqcUtils.Scan

open Bytes

/-! ## The stages -/

def ready (reads : List ReadEvent) : List ReadEvent := reads.dropWhile (· = .wouldBlock)

/-- The identification lines are exchanged, and these reads come after. -/
def Connection.Identified (connection : Connection) (later : List ReadEvent) : Prop :=
  ∃ bytes, ready connection.reads = .received bytes :: later ∧ sshPrefix <+: bytes ∧
    connection.write = .written

def NextRead (reads : List ReadEvent) (bytes : Bytes) : Prop :=
  ∃ rest, ready reads = .received bytes :: rest

theorem ready_wouldBlock (reads : List ReadEvent) : ready (.wouldBlock :: reads) = ready reads :=
  List.dropWhile_cons_of_pos (by simp)

theorem ready_cons_of_ne {event : ReadEvent} (arrived : event ≠ .wouldBlock)
    (reads : List ReadEvent) : ready (event :: reads) = event :: reads :=
  List.dropWhile_cons_of_neg (by simpa using arrived)

theorem sshEchobackIdstring_ready (write : WriteEvent) (reads : List ReadEvent) :
    sshEchobackIdstring write (ready reads) = sshEchobackIdstring write reads := by
  induction reads with
  | nil => rfl
  | cons event reads ih =>
    by_cases waiting : event = .wouldBlock
    · rw [waiting, ready_wouldBlock, sshEchobackIdstring, ih]
    · rw [ready_cons_of_ne waiting]

theorem sshRecvKexinit_ready (reads : List ReadEvent) :
    sshRecvKexinit (ready reads) = sshRecvKexinit reads := by
  induction reads with
  | nil => rfl
  | cons event reads ih =>
    by_cases waiting : event = .wouldBlock
    · rw [waiting, ready_wouldBlock, sshRecvKexinit, ih]
    · rw [ready_cons_of_ne waiting]

theorem ready_eq_nil_or_cons (reads : List ReadEvent) :
    ready reads = [] ∨ ∃ event rest, event ≠ .wouldBlock ∧ ready reads = event :: rest := by
  induction reads with
  | nil => exact .inl rfl
  | cons event reads ih =>
    by_cases waiting : event = .wouldBlock
    · rw [waiting, ready_wouldBlock]
      exact ih
    · exact .inr ⟨event, reads, waiting, ready_cons_of_ne waiting reads⟩

theorem sshEchobackIdstring_eq_ok_iff {connection : Connection} {later : List ReadEvent} :
    sshEchobackIdstring connection.write connection.reads = .ok later ↔
      connection.Identified later := by
  rw [← sshEchobackIdstring_ready, Connection.Identified]
  obtain timeout | ⟨event, rest, arrived, left⟩ := ready_eq_nil_or_cons connection.reads
  · simp [timeout, sshEchobackIdstring]
  · rw [left]
    cases event with
    | wouldBlock => exact absurd rfl arrived
    | failed error => simp [sshEchobackIdstring]
    | notReadable error => simp [sshEchobackIdstring]
    | received bytes =>
      cases bytes with
      | nil => simp [sshEchobackIdstring, sshPrefix]
      | cons byte bytes =>
        simp only [sshEchobackIdstring]
        by_cases line : sshPrefix <+: byte :: bytes
        · have long : ¬(byte :: bytes).length < 4 := by
            have bound := line.length_le
            simpa [sshPrefix] using bound
          rw [if_neg (not_or.mpr ⟨long, not_not.mpr line⟩)]
          cases connection.write with
          | written => simp [line]
          | notWritable error => simp
          | failed error => simp
          | timedOut => simp
        · rw [if_pos (.inr line)]
          simp [line]

theorem parseSshMsgKexinit_nil : parseSshMsgKexinit [] = .err .lessThanFourBytes := by
  decide

theorem sshRecvKexinit_of_nextRead {reads : List ReadEvent} {bytes : Bytes}
    (next : NextRead reads bytes) :
    (∀ msg, parseSshMsgKexinit bytes = .ok msg → sshRecvKexinit reads = .ok msg) ∧
      (parseSshMsgKexinit bytes = .panic → sshRecvKexinit reads = .panic) ∧
      (∀ error, parseSshMsgKexinit bytes = .err error →
        ∃ error, sshRecvKexinit reads = .err error) := by
  obtain ⟨rest, left⟩ := next
  rw [← sshRecvKexinit_ready, left]
  cases bytes with
  | nil => simp [parseSshMsgKexinit_nil, sshRecvKexinit]
  | cons byte bytes =>
    refine ⟨fun msg parsed => ?_, fun parsed => ?_, fun error parsed => ⟨.kexinit error, ?_⟩⟩
    all_goals simp only [sshRecvKexinit, parsed]

theorem sshRecvKexinit_of_not_nextRead {reads : List ReadEvent}
    (none : ∀ bytes, ¬NextRead reads bytes) : ∃ error, sshRecvKexinit reads = .err error := by
  rw [← sshRecvKexinit_ready]
  obtain timeout | ⟨event, rest, arrived, left⟩ := ready_eq_nil_or_cons reads
  · exact ⟨.timeout, by rw [timeout, sshRecvKexinit]⟩
  · rw [left]
    cases event with
    | wouldBlock => exact absurd rfl arrived
    | failed error => exact ⟨_, rfl⟩
    | notReadable error => exact ⟨_, rfl⟩
    | received bytes => exact absurd ⟨rest, left⟩ (none bytes)

/-! ## What the report counts -/

/-- A scan of the result changes the counts of the report by these numbers, whatever was scanned
before. -/
def ScanResult.Counted (result : ScanResult) (success fail : Nat) : Prop :=
  ∀ (files : List (String × Scan)) (inputFile : String) (window : ScanWindow),
    (∀ file ∈ files, file.2.Usable) →
    let scan : Scan := ⟨[result], window.startTime, window.endTime, crateVersion, window.scanType⟩
    ∃ before after, createReport (parsedFiles files) = .ok before ∧
      createReport (parsedFiles (files ++ [(inputFile, scan)])) = .ok after ∧
      after.sshSuccessCount = before.sshSuccessCount + success ∧
      after.sshFailCount = before.sshFailCount + fail

theorem ScanResult.counted_ssh (target : Target) (addr error : Option String) (pqc : Bool)
    (pqcAlgos nonpqcAlgos : Option (List String)) :
    (ScanResult.ssh target addr error pqc pqcAlgos nonpqcAlgos).Counted
      (if error.isNone then 1 else 0) (if error.isNone then 0 else 1) := by
  intro files inputFile window usable scan
  have usableScan : scan.Usable := ⟨rfl, by simp [scan]⟩
  have usableAll : ∀ file ∈ files ++ [(inputFile, scan)], file.2.Usable :=
    List.forall_mem_append.mpr ⟨usable, List.forall_mem_singleton.mpr usableScan⟩
  obtain ⟨before, createdBefore, countsBefore⟩ := exists_createReport usable
  obtain ⟨after, createdAfter, countsAfter⟩ := exists_createReport usableAll
  refine ⟨before, after, createdBefore, createdAfter, ?_⟩
  have results : ofType .ssh (allResults (files ++ [(inputFile, scan)])) =
      ofType .ssh (allResults files) ++ [.ssh target addr error pqc pqcAlgos nonpqcAlgos] := by
    simp [ofType, allResults, scan, ScanResult.scanType]
  have countsSsh := countsAfter .ssh
  rw [results] at countsSsh
  have success := countsSsh.success
  have total := countsSsh.total
  have sum := countsSsh.sum
  have successBefore := (countsBefore .ssh).success
  have totalBefore := (countsBefore .ssh).total
  have sumBefore := (countsBefore .ssh).sum
  rw [List.countP_append, List.countP_singleton, ← successBefore] at success
  rw [List.length_append, ← totalBefore] at total
  simp only [ReportResults.protocol, ScanResult.error, List.length_singleton]
    at success total sum successBefore totalBefore sumBefore
  refine ⟨success, ?_⟩
  cases error with
  | none =>
    simp only [Option.isNone_none, if_true] at success ⊢
    omega
  | some error =>
    simp only [Option.isNone_some, Bool.false_eq_true, if_false] at success ⊢
    omega

/-! ## Truthful results -/

def Obtains (connected : Except String (String × Connection)) (msg : KexInitMsg) : Prop :=
  ∃ addr connection later bytes, connected = .ok (addr, connection) ∧
    connection.Identified later ∧ NextRead later bytes ∧ parseSshMsgKexinit bytes = .ok msg

/-- The result is a success only with the names of a packet, and a failure without one. -/
structure Truthful (kexAlgos : HashMap String KexAlgo) (target : Target)
    (connected : Except String (String × Connection)) (result : ScanResult) : Prop where
  success : result.error = none → ∃ msg, Obtains connected msg ∧
    ∃ addr pqc, result = .ssh target addr none pqc
      (some (msg.kexAlgos.filter (knownAs kexAlgos true)))
      (some (msg.kexAlgos.filter (knownAs kexAlgos false)))
  failure : (¬∃ msg, Obtains connected msg) → result.error.isSome ∧ result.Counted 0 1

/-- After the identification there is a read that the parser does not reject. -/
def NotRejected (connected : Except String (String × Connection)) : Prop :=
  ∀ addr connection later, connected = .ok (addr, connection) → connection.Identified later →
    ∃ bytes, NextRead later bytes ∧ ∀ error, parseSshMsgKexinit bytes ≠ .err error

/-- After the identification there is no read on which the parser panics. -/
def NotPanicking (connected : Except String (String × Connection)) : Prop :=
  ∀ addr connection later bytes, connected = .ok (addr, connection) →
    connection.Identified later → NextRead later bytes → parseSshMsgKexinit bytes ≠ .panic

theorem Connection.Identified.unique {connection : Connection} {later later' : List ReadEvent}
    (identified : connection.Identified later) (identified' : connection.Identified later') :
    later = later' := by
  obtain ⟨bytes, left, -, -⟩ := identified
  obtain ⟨bytes', left', -, -⟩ := identified'
  rw [left, List.cons.injEq] at left'
  exact left'.2

theorem NextRead.unique {reads : List ReadEvent} {bytes bytes' : Bytes}
    (next : NextRead reads bytes) (next' : NextRead reads bytes') : bytes = bytes' := by
  obtain ⟨rest, left⟩ := next
  obtain ⟨rest', left'⟩ := next'
  rw [left, List.cons.injEq, ReadEvent.received.injEq] at left'
  exact left'.1

theorem NextRead.exists_iff {reads : List ReadEvent} {bytes : Bytes}
    (next : NextRead reads bytes) {Holds : Bytes → Prop} :
    (∃ other, NextRead reads other ∧ Holds other) ↔ Holds bytes := by
  constructor
  · rintro ⟨other, next', holds⟩
    exact next'.unique next ▸ holds
  · exact fun holds => ⟨bytes, next, holds⟩

theorem NextRead.forall_iff {reads : List ReadEvent} {bytes : Bytes}
    (next : NextRead reads bytes) {Holds : Bytes → Prop} :
    (∀ other, NextRead reads other → Holds other) ↔ Holds bytes := by
  constructor
  · exact fun all => all bytes next
  · intro holds other next'
    exact next.unique next' ▸ holds

variable {kexAlgos : HashMap String KexAlgo} {target : Target}
  {connected : Except String (String × Connection)}

theorem Truthful.of_error {addr : Option String} {error : String} {pqc : Bool}
    {pqcAlgos nonpqcAlgos : Option (List String)} :
    Truthful kexAlgos target connected
      (.ssh target addr (some error) pqc pqcAlgos nonpqcAlgos) where
  success noError := by cases noError
  failure _ := ⟨rfl, ScanResult.counted_ssh target addr (some error) pqc pqcAlgos nonpqcAlgos⟩

theorem sshScanTarget_of_not_identified
    (unidentified : ∀ addr connection later, connected = .ok (addr, connection) →
      ¬connection.Identified later) :
    ∃ addr error, sshScanTarget kexAlgos target connected =
      some (.ssh target addr (some error) false none none) := by
  cases connected with
  | error error => exact ⟨none, error, rfl⟩
  | ok connected =>
    obtain ⟨addr, connection⟩ := connected
    cases exchanged : sshEchobackIdstring connection.write connection.reads with
    | error error => exact ⟨some addr, _, by rw [sshScanTarget, exchanged]⟩
    | ok later =>
      exact absurd (sshEchobackIdstring_eq_ok_iff.mp exchanged)
        (unidentified addr connection later rfl)

theorem sshScanTarget_of_identified {addr : String} {connection : Connection}
    {later : List ReadEvent} (identified : connection.Identified later) :
    sshScanTarget kexAlgos target (.ok (addr, connection)) =
      match sshRecvKexinit later with
      | .panic => none
      | .err _ => some (.ssh target (some addr) none false (some []) (some []))
      | .ok ki => some (.ssh target (some addr) none (ki.kexAlgos.any (knownAs kexAlgos true))
          (some (ki.kexAlgos.filter (knownAs kexAlgos true)))
          (some (ki.kexAlgos.filter (knownAs kexAlgos false)))) := by
  have exchanged := sshEchobackIdstring_eq_ok_iff.mpr identified
  cases received : sshRecvKexinit later with
  | ok ki => simp only [sshScanTarget, exchanged, received, classifyKex_eq]
  | err error => simp only [sshScanTarget, exchanged, received]
  | panic => simp only [sshScanTarget, exchanged, received]

section Identified

variable {addr : String} {connection : Connection} {later : List ReadEvent}
  (identified : connection.Identified later)

include identified

theorem Connection.Identified.obtains_iff {msg : KexInitMsg} :
    Obtains (.ok (addr, connection)) msg ↔
      ∃ bytes, NextRead later bytes ∧ parseSshMsgKexinit bytes = .ok msg := by
  constructor
  · rintro ⟨_, _, later', bytes, same, identified', next, parsed⟩
    cases same
    rw [identified'.unique identified] at next
    exact ⟨bytes, next, parsed⟩
  · rintro ⟨bytes, next, parsed⟩
    exact ⟨addr, connection, later, bytes, rfl, identified, next, parsed⟩

theorem Connection.Identified.notRejected_iff :
    NotRejected (.ok (addr, connection)) ↔
      ∃ bytes, NextRead later bytes ∧ ∀ error, parseSshMsgKexinit bytes ≠ .err error := by
  refine ⟨fun notRejected => notRejected addr connection later rfl identified, ?_⟩
  rintro next _ _ later' ⟨⟩ identified'
  rwa [identified'.unique identified]

theorem Connection.Identified.notPanicking_iff :
    NotPanicking (.ok (addr, connection)) ↔
      ∀ bytes, NextRead later bytes → parseSshMsgKexinit bytes ≠ .panic := by
  refine ⟨fun fine bytes => fine addr connection later bytes rfl identified, ?_⟩
  rintro fine _ _ later' bytes ⟨⟩ identified' next
  rw [identified'.unique identified] at next
  exact fine bytes next

theorem Connection.Identified.truthful {msg : KexInitMsg} {bytes : Bytes} {pqc : Bool}
    (next : NextRead later bytes) (parsed : parseSshMsgKexinit bytes = .ok msg) :
    Truthful kexAlgos target (.ok (addr, connection)) (.ssh target (some addr) none pqc
      (some (msg.kexAlgos.filter (knownAs kexAlgos true)))
      (some (msg.kexAlgos.filter (knownAs kexAlgos false)))) where
  success _ := ⟨msg, identified.obtains_iff.mpr ⟨bytes, next, parsed⟩, some addr, pqc, rfl⟩
  failure noPacket := absurd ⟨msg, identified.obtains_iff.mpr ⟨bytes, next, parsed⟩⟩ noPacket

theorem Connection.Identified.not_truthful {error : RecvError}
    (received : sshRecvKexinit later = .err error) :
    ¬Truthful kexAlgos target (.ok (addr, connection))
      (.ssh target (some addr) none false (some []) (some [])) := by
  intro truthful
  obtain ⟨msg, obtained, -⟩ := truthful.success rfl
  obtain ⟨bytes, next, parsed⟩ := identified.obtains_iff.mp obtained
  rw [(sshRecvKexinit_of_nextRead next).1 msg parsed] at received
  cases received

end Identified

/-- The result of a probe is truthful exactly if no packet is missing or rejected in the third
stage, and there is one exactly if the parser does not panic. -/
theorem truthful_iff (kexAlgos : HashMap String KexAlgo) (target : Target)
    (connected : Except String (String × Connection)) :
    ((∀ result, sshScanTarget kexAlgos target connected = some result →
        Truthful kexAlgos target connected result) ↔ NotRejected connected) ∧
      ((∃ result, sshScanTarget kexAlgos target connected = some result) ↔
        NotPanicking connected) := by
  by_cases stages : ∃ addr connection later, connected = .ok (addr, connection) ∧
      connection.Identified later
  · obtain ⟨addr, connection, later, rfl, identified⟩ := stages
    rw [sshScanTarget_of_identified identified, identified.notRejected_iff,
      identified.notPanicking_iff]
    by_cases nothing : ∀ bytes, ¬NextRead later bytes
    · obtain ⟨error, received⟩ := sshRecvKexinit_of_not_nextRead nothing
      rw [received]
      constructor
      · exact iff_of_false (fun truthful => identified.not_truthful received (truthful _ rfl))
          fun ⟨bytes, next, _⟩ => nothing bytes next
      · exact iff_of_true ⟨_, rfl⟩ fun bytes next => absurd next (nothing bytes)
    · push Not at nothing
      obtain ⟨bytes, next⟩ := nothing
      obtain ⟨ok, panic, err⟩ := sshRecvKexinit_of_nextRead next
      rw [next.exists_iff, next.forall_iff]
      cases parsed : parseSshMsgKexinit bytes with
      | ok msg =>
        rw [ok msg parsed]
        refine ⟨iff_of_true ?_ (by simp), iff_of_true ⟨_, rfl⟩ (by simp)⟩
        rintro _ ⟨⟩
        exact identified.truthful next parsed
      | err error =>
        obtain ⟨error', received⟩ := err error parsed
        rw [received]
        constructor
        · exact iff_of_false (fun truthful => identified.not_truthful received (truthful _ rfl))
            (by simp)
        · exact iff_of_true ⟨_, rfl⟩ (by simp)
      | panic =>
        rw [panic parsed]
        exact ⟨iff_of_true (by rintro _ ⟨⟩) (by simp), iff_of_false (by simp) (by simp)⟩
  · push Not at stages
    obtain ⟨addr, error, scanned⟩ : ∃ addr error, sshScanTarget kexAlgos target connected =
        some (.ssh target addr (some error) false none none) :=
      sshScanTarget_of_not_identified stages
    rw [scanned]
    constructor
    · exact iff_of_true (fun result same => Option.some.inj same ▸ .of_error)
        fun addr connection later same identified => absurd identified (stages _ _ _ same)
    · exact iff_of_true ⟨_, rfl⟩
        fun addr connection later _ same identified => absurd identified (stages _ _ _ same)

def closedConnection : Connection := ⟨[.received (sshPrefix ++ [50, 10]), .received []], .written⟩

theorem closed_probe_succeeds :
    sshScanTarget ∅ ⟨"localhost", 22⟩ (.ok ("127.0.0.1:22", closedConnection)) =
        some (.ssh ⟨"localhost", 22⟩ (some "127.0.0.1:22") none false (some []) (some [])) ∧
      ScanResult.Counted
        (.ssh ⟨"localhost", 22⟩ (some "127.0.0.1:22") none false (some []) (some [])) 1 0 ∧
      ¬Truthful ∅ ⟨"localhost", 22⟩ (.ok ("127.0.0.1:22", closedConnection))
        (.ssh ⟨"localhost", 22⟩ (some "127.0.0.1:22") none false (some []) (some [])) := by
  have identified : closedConnection.Identified [.received []] :=
    ⟨sshPrefix ++ [50, 10], rfl, by simp, rfl⟩
  refine ⟨?_, ScanResult.counted_ssh _ _ none _ _ _, identified.not_truthful rfl⟩
  rw [sshScanTarget_of_identified identified]
  rfl

end PqcUtils.Scan

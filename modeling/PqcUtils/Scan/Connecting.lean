import PqcUtils.Net.RoundTrip
import PqcUtils.Scan.Main
import PqcUtils.Scan.Tls.Reply

/-!
# Connecting

`socket_create_and_connect` resolves a target and connects to the first address it
gets. A scan tells an error of it by its text, and a connection by the text of its
address. Both texts say all there is to say: the cause can be read off an error, and
an address reads back.
-/

namespace PqcUtils.Scan

open Net

/-! ## One connection -/

/-- What `lookup_host` brings in time. -/
inductive Resolution where
  | timedOut
  | failed
  | resolved (addrs : List SocketAddr)

/-- What connecting to an address brings in time. -/
inductive ConnectOutcome (Stream : Type) where
  | connected (stream : Stream)
  | refused
  | timedOut

def socketCreateAndConnect {Stream : Type} (target : Target) (timeout : Nat)
    (resolution : Resolution) (connect : SocketAddr → ConnectOutcome Stream) :
    Except String (SocketAddr × Stream) :=
  match resolution with
  | .timedOut => .error ("Could not resolve " ++ target.host)
  | .failed => .error ("Could not resolve " ++ target.host)
  | .resolved [] => .error ("Could not resolve " ++ target.host)
  | .resolved (addr :: _) =>
    match connect addr with
    | .connected stream => .ok (addr, stream)
    | .refused => .error ("Could not connect to " ++ addr.display)
    | .timedOut =>
      .error ("Timed out after " ++ toString timeout ++ "s connecting to " ++ addr.display)

structure Dial (Stream : Type) where
  resolution : Resolution
  connect : SocketAddr → ConnectOutcome Stream

def connectPrinted {Stream : Type} (target : Target) (timeout : Nat) (dial : Dial Stream) :
    Except String (String × Stream) :=
  (socketCreateAndConnect target timeout dial.resolution dial.connect).map fun (addr, stream) =>
    (addr.display, stream)

/-! ## Causes -/

inductive Failure where
  | unresolved
  | refused (addr : SocketAddr)
  | late (addr : SocketAddr)
  deriving DecidableEq, Repr

def Failure.text (target : Target) (timeout : Nat) : Failure → String
  | .unresolved => "Could not resolve " ++ target.host
  | .refused addr => "Could not connect to " ++ addr.display
  | .late addr =>
    "Timed out after " ++ toString timeout ++ "s connecting to " ++ addr.display

/-- An error text tells its cause. -/
theorem Failure.text_injective (target : Target) (timeout : Nat) :
    Function.Injective (Failure.text target timeout) := by
  have agree {first second tail tail' : String} (same : first ++ tail = second ++ tail')
      (no : Nat) (inFirst : no < first.toList.length) (inSecond : no < second.toList.length) :
      first.toList[no]? = second.toList[no]? := by
    have chars := congrArg (fun text => text.toList[no]?) same
    simp only [String.toList_append] at chars
    rwa [List.getElem?_append_left inFirst, List.getElem?_append_left inSecond] at chars
  have notRefused (tail tail' : String) :
      "Could not resolve " ++ tail ≠ "Could not connect to " ++ tail' :=
    fun same => absurd (agree same 10 (by simp) (by simp)) (by simp)
  have notLate (first : String) (head : first.toList[0]? = some 'C') (tail tail' : String) :
      first ++ tail ≠ "Timed out after " ++ tail' := by
    intro same
    have inFirst : 0 < first.toList.length := (List.getElem?_eq_some_iff.mp head).1
    have chars := agree same 0 inFirst (by simp)
    simp [head] at chars
  have assoc (first second third fourth : String) :
      first ++ second ++ third ++ fourth = first ++ (second ++ third ++ fourth) := by
    simp only [String.append_assoc]
  have lateText (addr : SocketAddr) : Failure.text target timeout (.late addr) =
      "Timed out after " ++ (toString timeout ++ "s connecting to " ++ addr.display) :=
    assoc _ _ _ _
  intro failure failure' same
  match failure, failure' with
  | .unresolved, .unresolved => rfl
  | .unresolved, .refused _ => exact absurd same (notRefused _ _)
  | .unresolved, .late _ => exact absurd (same.trans (lateText _)) (notLate _ rfl _ _)
  | .refused _, .unresolved => exact absurd same.symm (notRefused _ _)
  | .refused addr, .refused addr' =>
    rw [SocketAddr.display_injective ((String.append_right_inj _).mp same)]
  | .refused _, .late _ => exact absurd (same.trans (lateText _)) (notLate _ rfl _ _)
  | .late _, .unresolved => exact absurd (same.symm.trans (lateText _)) (notLate _ rfl _ _)
  | .late _, .refused _ => exact absurd (same.symm.trans (lateText _)) (notLate _ rfl _ _)
  | .late addr, .late addr' =>
    rw [SocketAddr.display_injective ((String.append_right_inj _).mp same)]

namespace Dial

variable {Stream : Type} {dial : Dial Stream} {target : Target} {timeout : Nat}
  {addr : SocketAddr} {stream : Stream} {failure : Failure}

/-- The first address of the target takes the connection. No other one is tried. -/
def Reaches (dial : Dial Stream) (addr : SocketAddr) (stream : Stream) : Prop :=
  ∃ others, dial.resolution = .resolved (addr :: others) ∧ dial.connect addr = .connected stream

/-- There is no address, or the first one refuses the connection or is late. -/
inductive FailsBy (dial : Dial Stream) : Failure → Prop
  | unresolved : (∀ addr others, dial.resolution ≠ .resolved (addr :: others)) →
      FailsBy dial .unresolved
  | refused {addr others} : dial.resolution = .resolved (addr :: others) →
      dial.connect addr = .refused → FailsBy dial (.refused addr)
  | late {addr others} : dial.resolution = .resolved (addr :: others) →
      dial.connect addr = .timedOut → FailsBy dial (.late addr)

theorem connectPrinted_of_reaches (reaches : dial.Reaches addr stream) :
    connectPrinted target timeout dial = .ok (addr.display, stream) := by
  obtain ⟨others, resolved, connected⟩ := reaches
  simp only [connectPrinted, socketCreateAndConnect, resolved, connected, Except.map]

theorem connectPrinted_of_failsBy (fails : dial.FailsBy failure) :
    connectPrinted target timeout dial = .error (failure.text target timeout) := by
  cases fails with
  | unresolved nowhere =>
    unfold connectPrinted socketCreateAndConnect
    split
    · rfl
    · rfl
    · rfl
    · next resolved => exact absurd resolved (nowhere _ _)
  | refused resolved outcome | late resolved outcome =>
    simp only [connectPrinted, socketCreateAndConnect, resolved, outcome]
    rfl

theorem reaches_or_failsBy (dial : Dial Stream) :
    (∃ addr stream, dial.Reaches addr stream) ∨ ∃ failure, dial.FailsBy failure := by
  by_cases resolved : ∃ addr others, dial.resolution = .resolved (addr :: others)
  · obtain ⟨addr, others, resolved⟩ := resolved
    cases outcome : dial.connect addr with
    | connected stream => exact .inl ⟨addr, stream, others, resolved, outcome⟩
    | refused => exact .inr ⟨_, .refused resolved outcome⟩
    | timedOut => exact .inr ⟨_, .late resolved outcome⟩
  · exact .inr ⟨_, .unresolved fun addr others same => resolved ⟨addr, others, same⟩⟩

theorem Reaches.unique {addr' : SocketAddr} {stream' : Stream} (reaches : dial.Reaches addr stream)
    (reaches' : dial.Reaches addr' stream') : addr = addr' := by
  obtain ⟨others, resolved, -⟩ := reaches
  obtain ⟨others', resolved', -⟩ := reaches'
  cases resolved.symm.trans resolved'
  rfl

theorem Reaches.not_failsBy (reaches : dial.Reaches addr stream) : ¬dial.FailsBy failure := by
  intro fails
  have connected : connectPrinted ⟨"", 0⟩ 0 dial = _ := connectPrinted_of_reaches reaches
  rw [connectPrinted_of_failsBy fails] at connected
  cases connected

theorem FailsBy.unique {failure' : Failure} (fails : dial.FailsBy failure)
    (fails' : dial.FailsBy failure') : failure = failure' := by
  have printed : connectPrinted ⟨"", 0⟩ 0 dial = _ := connectPrinted_of_failsBy fails
  rw [connectPrinted_of_failsBy fails', Except.error.injEq] at printed
  exact Failure.text_injective _ _ printed.symm

end Dial

/-! ## One scan -/

structure Dialing where
  ssh : Dial Connection
  tls : String → TlsGroup → Dial TlsStream

namespace Dialing

def ReachesAll (dialing : Dialing) (groups : List (String × TlsGroup)) : Prop :=
  ∀ entry ∈ groups, ∃ addr stream, (dialing.tls entry.1 entry.2).Reaches addr stream

/-- The first group without a connection has none for this cause. -/
inductive GroupFailsBy (dialing : Dialing) : List (String × TlsGroup) → Failure → Prop
  | now {name group groups failure} : (dialing.tls name group).FailsBy failure →
      GroupFailsBy dialing ((name, group) :: groups) failure
  | later {name group groups failure addr stream} : (dialing.tls name group).Reaches addr stream →
      GroupFailsBy dialing groups failure → GroupFailsBy dialing ((name, group) :: groups) failure

theorem reachesAll_or_groupFailsBy (dialing : Dialing) (groups : List (String × TlsGroup)) :
    dialing.ReachesAll groups ∨ ∃ failure, dialing.GroupFailsBy groups failure := by
  induction groups with
  | nil => exact .inl (List.forall_mem_nil _)
  | cons entry groups ih =>
    obtain ⟨name, group⟩ := entry
    rcases (dialing.tls name group).reaches_or_failsBy with ⟨addr, stream, reaches⟩ | fails
    · rcases ih with all | ⟨failure, fails⟩
      · exact .inl (List.forall_mem_cons.mpr ⟨⟨addr, stream, reaches⟩, all⟩)
      · exact .inr ⟨failure, .later reaches fails⟩
    · obtain ⟨failure, fails⟩ := fails
      exact .inr ⟨failure, .now fails⟩

variable {dialing : Dialing} {groups : List (String × TlsGroup)} {failure failure' : Failure}

theorem GroupFailsBy.not_reachesAll (fails : dialing.GroupFailsBy groups failure) :
    ¬dialing.ReachesAll groups := by
  intro all
  induction fails with
  | now fails =>
    obtain ⟨addr, stream, reaches⟩ := (List.forall_mem_cons.mp all).1
    exact reaches.not_failsBy fails
  | later _ _ ih => exact ih (List.forall_mem_cons.mp all).2

theorem GroupFailsBy.unique (fails : dialing.GroupFailsBy groups failure)
    (fails' : dialing.GroupFailsBy groups failure') : failure = failure' := by
  induction fails with
  | now fails =>
    cases fails' with
    | now fails' => exact fails.unique fails'
    | later reaches _ => exact absurd fails reaches.not_failsBy
  | later reaches _ ih =>
    cases fails' with
    | now fails' => exact absurd fails' reaches.not_failsBy
    | later _ fails' => exact ih fails'

section Scan

variable (dialing : Dialing) (config : Config) (options : ScanOptions)

def tested : List (String × TlsGroup) :=
  groupsToTest options.scanHybridAlgosOnly options.scanNonpqcAlgos config.groups

/-- Every connection is made, the first one to this address. -/
def Connects (addr : SocketAddr) : Prop :=
  match options.scanType with
  | .tls => ∃ name group groups stream, tested config options = (name, group) :: groups ∧
      (dialing.tls name group).Reaches addr stream ∧ dialing.ReachesAll groups
  | .ssh => ∃ stream, dialing.ssh.Reaches addr stream

/-- The first connection that is not made is not made for this cause. -/
def Fails (failure : Failure) : Prop :=
  match options.scanType with
  | .tls => dialing.GroupFailsBy (tested config options) failure
  | .ssh => dialing.ssh.FailsBy failure

variable {dialing config options} {addr addr' : SocketAddr}

theorem Connects.unique (connects : dialing.Connects config options addr)
    (connects' : dialing.Connects config options addr') : addr = addr' := by
  unfold Connects at connects connects'
  cases type : options.scanType with
  | ssh =>
    simp only [type] at connects connects'
    obtain ⟨stream, reaches⟩ := connects
    obtain ⟨stream', reaches'⟩ := connects'
    exact reaches.unique reaches'
  | tls =>
    simp only [type] at connects connects'
    obtain ⟨name, group, groups, stream, tested, reaches, -⟩ := connects
    obtain ⟨name', group', groups', stream', tested', reaches', -⟩ := connects'
    cases tested.symm.trans tested'
    exact reaches.unique reaches'

theorem Connects.not_fails (connects : dialing.Connects config options addr) :
    ¬dialing.Fails config options failure := by
  unfold Connects at connects
  unfold Fails
  cases type : options.scanType with
  | ssh =>
    simp only [type] at connects ⊢
    obtain ⟨stream, reaches⟩ := connects
    exact reaches.not_failsBy
  | tls =>
    simp only [type] at connects ⊢
    obtain ⟨name, group, groups, stream, tested, reaches, all⟩ := connects
    intro fails
    refine fails.not_reachesAll ?_
    rw [tested]
    exact List.forall_mem_cons.mpr ⟨⟨addr, stream, reaches⟩, all⟩

theorem Fails.unique (fails : dialing.Fails config options failure)
    (fails' : dialing.Fails config options failure') : failure = failure' := by
  unfold Fails at fails fails'
  cases type : options.scanType with
  | ssh =>
    simp only [type] at fails fails'
    exact fails.unique fails'
  | tls =>
    simp only [type] at fails fails'
    exact fails.unique fails'

theorem not_connects_of_untested (tls : options.scanType = .tls)
    (untested : tested config options = []) : ¬dialing.Connects config options addr := by
  simp [Connects, tls, untested]

theorem not_fails_of_untested (tls : options.scanType = .tls)
    (untested : tested config options = []) : ¬dialing.Fails config options failure := by
  simp only [Fails, tls, untested]
  exact nofun

end Scan

end Dialing

/-- The network answers through `socket_create_and_connect`, which is called anew for each group. -/
structure Dialed (timeout : Nat) (target : Target) (dialing : Dialing) (network : Network) :
    Prop where
  ssh : network.ssh = connectPrinted target timeout dialing.ssh
  tls : ∀ name group, ∃ ciphers sigschemes random sessionId,
    groupAttempt target.host group.groupId ciphers sigschemes random sessionId
      (connectPrinted target timeout (dialing.tls name group)) = some (network.tls name group)

/-- The result says of the connections of its scan what has happened to them. -/
structure Explained (config : Config) (options : ScanOptions) (timeout : Nat) (target : Target)
    (dialing : Dialing) (result : ScanResult) : Prop where
  about : result.targetspec = some target
  connects : ∀ addr : SocketAddr,
    result.addr = some addr.display ↔ dialing.Connects config options addr
  fails : ∀ failure : Failure, result.addr = none ∧
    result.error = some (failure.text target timeout) ↔ dialing.Fails config options failure
  address : ∀ text, result.addr = some text →
    ∃ addr, SocketAddr.parse text = some addr ∧ addr.display = text
  cause : result.addr = none → (∃ failure : Failure,
    result.error = some (failure.text target timeout)) ∨
      options.scanType = .tls ∧ Dialing.tested config options = [] ∧ result.error = none

section Scan

variable {config : Config} {options : ScanOptions} {timeout : Nat} {target : Target}
  {dialing : Dialing} {network : Network} {result : ScanResult} {failure : Failure}

theorem explained_of_connects {addr : SocketAddr} (about : result.targetspec = some target)
    (connects : dialing.Connects config options addr) (located : result.addr = some addr.display) :
    Explained config options timeout target dialing result where
  about := about
  connects addr' := by
    rw [located, Option.some.injEq]
    constructor
    · intro same
      exact SocketAddr.display_injective same ▸ connects
    · intro connects'
      rw [connects.unique connects']
  fails failure := by
    rw [located]
    exact iff_of_false (fun failed => nomatch failed.1) connects.not_fails
  address text printed := by
    rw [located, Option.some.injEq] at printed
    exact ⟨addr, printed ▸ parse_display addr, printed⟩
  cause unlocated := by
    rw [located] at unlocated
    cases unlocated

theorem explained_of_fails (about : result.targetspec = some target)
    (fails : dialing.Fails config options failure) (unlocated : result.addr = none)
    (error : result.error = some (failure.text target timeout)) :
    Explained config options timeout target dialing result where
  about := about
  connects addr := by
    rw [unlocated]
    exact iff_of_false nofun fun connects => connects.not_fails fails
  fails failure' := by
    rw [error, Option.some.injEq]
    constructor
    · rintro ⟨-, same⟩
      exact Failure.text_injective target timeout same ▸ fails
    · intro fails'
      exact ⟨unlocated, by rw [fails.unique fails']⟩
  address text printed := by
    rw [unlocated] at printed
    cases printed
  cause _ := .inl ⟨failure, error⟩

theorem explained_of_untested (about : result.targetspec = some target)
    (tls : options.scanType = .tls) (untested : Dialing.tested config options = [])
    (unlocated : result.addr = none) (silent : result.error = none) :
    Explained config options timeout target dialing result where
  about := about
  connects addr := by
    rw [unlocated]
    exact iff_of_false nofun (Dialing.not_connects_of_untested tls untested)
  fails failure := by
    rw [silent]
    exact iff_of_false nofun (Dialing.not_fails_of_untested tls untested)
  address text printed := by
    rw [unlocated] at printed
    cases printed
  cause _ := .inr ⟨tls, untested, silent⟩

theorem addr_sshScanTarget {kexAlgos : HashMap String KexAlgo} {printed : String}
    {connection : Connection}
    (scanned : sshScanTarget kexAlgos target (.ok (printed, connection)) = some result) :
    result.addr = some printed := by
  unfold sshScanTarget at scanned
  split at scanned
  · next failed => cases failed
  · next connected =>
    cases connected
    split at scanned
    · cases scanned
      rfl
    · split at scanned <;> cases scanned <;> rfl

theorem tls_of_reaches (dialed : Dialed timeout target dialing network) {name : String}
    {group : TlsGroup} {addr : SocketAddr} {stream : TlsStream}
    (reaches : (dialing.tls name group).Reaches addr stream) :
    ∃ handshake, network.tls name group = .ok (addr.display, handshake) := by
  obtain ⟨ciphers, sigschemes, random, sessionId, attempted⟩ := dialed.tls name group
  rw [Dial.connectPrinted_of_reaches reaches, groupAttempt] at attempted
  split at attempted
  · exact ⟨_, (Option.some.inj attempted).symm⟩
  · exact ⟨_, (Option.some.inj attempted).symm⟩
  · cases attempted

theorem tls_of_failsBy (dialed : Dialed timeout target dialing network) {name : String}
    {group : TlsGroup} (fails : (dialing.tls name group).FailsBy failure) :
    network.tls name group = .error (failure.text target timeout) := by
  obtain ⟨ciphers, sigschemes, random, sessionId, attempted⟩ := dialed.tls name group
  rw [Dial.connectPrinted_of_failsBy fails, groupAttempt, Option.some.injEq] at attempted
  exact attempted.symm

/-- The loop ends where a group fails, and says why. -/
theorem testGroups_of_groupFailsBy (dialed : Dialed timeout target dialing network)
    {groups : List (String × TlsGroup)} (fails : dialing.GroupFailsBy groups failure)
    (findings : TlsFindings) :
    testGroups target network.tls groups findings =
      .tls target none (some (failure.text target timeout)) false none none none := by
  induction fails generalizing findings with
  | now fails => rw [testGroups, tls_of_failsBy dialed fails]
  | later reaches _ ih =>
    obtain ⟨handshake, connected⟩ := tls_of_reaches dialed reaches
    rw [testGroups, connected]
    cases handshake with
    | ok => exact ih _
    | error => exact ih _

theorem addr_accept (findings : TlsFindings) (name : String) (group : TlsGroup) :
    (findings.accept name group).addr = findings.addr := by
  unfold TlsFindings.accept
  split
  · rfl
  · split <;> rfl

theorem addr_testGroups_of_reachesAll (dialed : Dialed timeout target dialing network)
    {groups : List (String × TlsGroup)} (all : dialing.ReachesAll groups) {findings : TlsFindings}
    {text : String} (found : findings.addr = some text) :
    (testGroups target network.tls groups findings).addr = some text := by
  induction groups generalizing findings with
  | nil => exact found
  | cons entry groups ih =>
    obtain ⟨⟨addr, stream, reaches⟩, all⟩ := List.forall_mem_cons.mp all
    obtain ⟨handshake, connected⟩ := tls_of_reaches dialed reaches
    rw [testGroups, connected]
    cases handshake with
    | ok => exact ih all (by rw [addr_accept, found, Option.getD_some])
    | error => exact ih all (by rw [found, Option.getD_some])

theorem explained_scanTarget (dialed : Dialed timeout target dialing network)
    (scanned : scanTarget config options target network = some result) :
    Explained config options timeout target dialing result := by
  have about := targetspec_of_scanTarget scanned
  unfold scanTarget at scanned
  split at scanned
  · next tls =>
    rw [Option.some.injEq, tlsScanTarget] at scanned
    cases tested : Dialing.tested config options with
    | nil =>
      rw [Dialing.tested] at tested
      rw [tested] at scanned
      subst scanned
      exact explained_of_untested about tls tested rfl rfl
    | cons entry groups =>
      obtain ⟨name, group⟩ := entry
      rcases dialing.reachesAll_or_groupFailsBy (Dialing.tested config options) with
        all | ⟨failure, fails⟩
      · rw [tested] at all
        obtain ⟨⟨addr, stream, reaches⟩, all⟩ := List.forall_mem_cons.mp all
        have connects : dialing.Connects config options addr := by
          simp only [Dialing.Connects, tls]
          exact ⟨name, group, groups, stream, tested, reaches, all⟩
        refine explained_of_connects about connects ?_
        obtain ⟨handshake, connected⟩ := tls_of_reaches dialed reaches
        rw [Dialing.tested] at tested
        rw [tested, testGroups, connected] at scanned
        rw [← scanned]
        cases handshake with
        | ok => exact addr_testGroups_of_reachesAll dialed all (addr_accept _ name group)
        | error => exact addr_testGroups_of_reachesAll dialed all rfl
      · rw [← Dialing.tested, testGroups_of_groupFailsBy dialed fails] at scanned
        have failed : dialing.Fails config options failure := by
          simpa only [Dialing.Fails, tls] using fails
        subst scanned
        exact explained_of_fails about failed rfl rfl
  · next ssh =>
    rw [dialed.ssh] at scanned
    rcases dialing.ssh.reaches_or_failsBy with ⟨addr, stream, reaches⟩ | ⟨failure, fails⟩
    · have connects : dialing.Connects config options addr := by
        simp only [Dialing.Connects, ssh]
        exact ⟨stream, reaches⟩
      rw [Dial.connectPrinted_of_reaches reaches] at scanned
      exact explained_of_connects about connects (addr_sshScanTarget scanned)
    · have failed : dialing.Fails config options failure := by
        simpa only [Dialing.Fails, ssh] using fails
      rw [Dial.connectPrinted_of_failsBy fails] at scanned
      cases scanned
      exact explained_of_fails about failed rfl rfl

end Scan

/-! ## Whole scans -/

section Run

variable {config : Config} {options : ScanOptions} {timeout : Nat} {events : List RunnerEvent}
  {state : RunnerState} {results : List ScanResult} {dialed : Target → Dialing → Prop}

/-- Whatever the schedule is and whatever the connections of the scans meet, each result says what
its connections have met. -/
theorem results_explained
    (admitted : Admitted config options (fun target network =>
      ∃ dialing, dialed target dialing ∧ Dialed timeout target dialing network) events)
    (ran : Runs.run (runnerStep config options) (startRunner options) events = some state)
    (returned : state.collector = .returned results) :
    ∀ result ∈ results, ∃ target dialing, dialed target dialing ∧
      Explained config options timeout target dialing result := by
  have answered := (answered_of_run admitted ran).collected
  rw [returned] at answered
  intro result membership
  obtain ⟨target, network, ⟨dialing, met, dialed⟩, scanned⟩ := answered result membership
  exact ⟨target, dialing, met, explained_scanTarget dialed scanned⟩

end Run

/-! ## A scan of two hosts -/

def refusedDial (Stream : Type) : Dial Stream :=
  ⟨.resolved [.v4 ⟨127, 0, 0, 1⟩ 22], fun _ => .refused⟩

def refusing : Dialing := ⟨refusedDial Connection, fun _ _ => refusedDial TlsStream⟩

/-- The first of two addresses takes the connection of an SSH scan, and closes it at once. -/
def closing : Dialing where
  ssh := ⟨.resolved [.v4 ⟨10, 0, 0, 2⟩ 22, .v4 ⟨10, 0, 0, 3⟩ 22],
    fun _ => .connected ⟨[.received []], .written⟩⟩
  tls _ _ := refusedDial TlsStream

def Dialing.network (dialing : Dialing) : Network :=
  ⟨connectPrinted ⟨"", 22⟩ 5 dialing.ssh,
    fun _ _ => .error (Failure.text ⟨"", 22⟩ 5 (.refused (.v4 ⟨127, 0, 0, 1⟩ 22)))⟩

theorem dialed_refusing (target : Target) : Dialed 5 target refusing refusing.network where
  ssh := rfl
  tls _ _ := ⟨[], [], .replicate 32 0, .replicate 32 0, rfl⟩

theorem dialed_closing (target : Target) : Dialed 5 target closing closing.network where
  ssh := rfl
  tls _ _ := ⟨[], [], .replicate 32 0, .replicate 32 0, rfl⟩

/-- One thread scans both hosts. -/
def dialedEvents : List RunnerEvent :=
  [.main, .main] ++ List.replicate 3 (.worker 0 refusing.network) ++
    List.replicate 5 (.worker 0 closing.network) ++ List.replicate 3 .main

def dialedHosts : ScanOptions := ⟨1, [⟨"a.test", 22⟩, ⟨"b.test", 22⟩], .ssh, false, false⟩

theorem results_explained_two_hosts :
    ∃ state first second,
      Runs.run (runnerStep ⟨∅, []⟩ dialedHosts) (startRunner dialedHosts) dialedEvents =
        some state ∧ state.collector = .returned [first, second] ∧
      first.error = some "Could not connect to 127.0.0.1:22" ∧
      second.addr = some "10.0.0.2:22" ∧ ∀ result ∈ [first, second], ∃ target dialing,
        (dialing = refusing ∨ dialing = closing) ∧
        Explained ⟨∅, []⟩ dialedHosts 5 target dialing result := by
  have admitted : Admitted ⟨∅, []⟩ dialedHosts (fun target network =>
      ∃ dialing, (dialing = refusing ∨ dialing = closing) ∧ Dialed 5 target dialing network)
      dialedEvents := by
    intro earlier no network rest before target split _ _
    have among : RunnerEvent.worker no network ∈ dialedEvents := by simp [split]
    simp only [dialedEvents, List.mem_append, List.mem_cons, List.mem_replicate,
      List.not_mem_nil, or_false, reduceCtorEq, or_self, false_or, and_false,
      RunnerEvent.worker.injEq] at among
    rcases among with ⟨-, -, rfl⟩ | ⟨-, -, rfl⟩
    · exact ⟨refusing, .inl rfl, dialed_refusing target⟩
    · exact ⟨closing, .inr rfl, dialed_closing target⟩
  exact ⟨_, _, _, rfl, rfl, by decide +kernel, by decide +kernel, results_explained admitted rfl rfl⟩

end PqcUtils.Scan

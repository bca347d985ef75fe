import PqcUtils.Library.Runs
import PqcUtils.Library.WorkerPool
import PqcUtils.Scan.Ssh
import PqcUtils.Scan.Tls

/-!
# The scan runner

`scan_runner` puts all targets and one empty target for each thread into a
channel, spawns the threads, and collects results until each of them has sent
`Done`. A schedule is the order in which the runner and its threads take their
steps; it also says what the network answers to each scan.
-/

namespace PqcUtils.Scan

open WorkerPool

/-- The tables of the two scans; the one of the groups in the order in which it is visited. -/
structure Config where
  kexAlgos : HashMap String KexAlgo
  groups : List (String × TlsGroup)

structure ScanOptions where
  numThreads : Nat
  targets : List Target
  scanType : ScanType
  scanHybridAlgosOnly : Bool
  scanNonpqcAlgos : Bool

/-- What the network answers to one scan, of either type. -/
structure Network where
  ssh : Except String (String × Connection)
  tls : String → TlsGroup → GroupAttempt

def scanTarget (config : Config) (options : ScanOptions) (target : Target) (network : Network) :
    Option ScanResult :=
  match options.scanType with
  | .tls =>
    some (tlsScanTarget config.groups target options.scanHybridAlgosOnly options.scanNonpqcAlgos
      network.tls)
  | .ssh => sshScanTarget config.kexAlgos target network.ssh

/-- The queue of targets, the threads, the channel of results, and where `scan_runner` stands. -/
abbrev RunnerState := State Target ScanResult

/-- There are no more threads than targets. -/
def ScanOptions.threads (options : ScanOptions) : Nat :=
  if options.numThreads > options.targets.length then options.targets.length
  else options.numThreads

/-- All targets and the empty ones are queued before the first thread is spawned. -/
def startRunner (options : ScanOptions) : RunnerState :=
  ⟨options.targets ++ List.replicate options.threads ⟨"", 0⟩, [], [], .spawning options.threads⟩

/-- `tx`, which `scan_runner` holds until it returns. -/
def targetSenders (state : RunnerState) : Nat := if state.collector.isRunning then 1 else 0

theorem targetSenders_eq_zero_iff {state : RunnerState} :
    targetSenders state = 0 ↔ state.collector.isRunning = false := by
  cases held : state.collector.isRunning <;> simp only [targetSenders, held] <;> decide

/-- `results_tx_orig`, and the clone of each thread that has not exited. -/
def resultSenders (state : RunnerState) : Nat :=
  (if state.collector.isRunning then 1 else 0) + state.workers.countP fun worker => !worker.isExited

/-- The next step of `scan_runner`. It waits while there is no result and somebody may send one. -/
def mainStep (options : ScanOptions) (state : RunnerState) : Option RunnerState :=
  match state.collector with
  | .spawning (left + 1) =>
    some { state with workers := state.workers ++ [.receiving], collector := .spawning left }
  | .spawning 0 => some { state with collector := .collecting options.threads [] }
  | .collecting numThreads results =>
    match state.channel with
    | [] =>
      if resultSenders state = 0 then some { state with collector := .returned results } else none
    | .done :: channel =>
      match numThreads with
      | 0 => some { state with channel, collector := .underflowed }
      | numThreads + 1 =>
        some { state with
          channel
          collector := if numThreads = 0 then .returned results
            else .collecting numThreads results }
    | result :: channel =>
      some { state with channel, collector := .collecting numThreads (results ++ [result]) }
  | .returned _ => none
  | .underflowed => none

/-- The next step of one thread. An empty host is the request to quit. -/
def workerStep (config : Config) (options : ScanOptions) (state : RunnerState) (no : Nat)
    (network : Network) : Option RunnerState :=
  match state.workers[no]? with
  | some .receiving =>
    match state.queue with
    | [] =>
      if targetSenders state = 0 then some { state with workers := state.workers.set no .exited }
      else none
    | target :: queue =>
      if target.host = "" then
        some { state with queue, workers := state.workers.set no .quitting }
      else
        some { state with queue, workers := state.workers.set no (.working target) }
  | some (.working target) =>
    (scanTarget config options target network).map fun result =>
      { state with workers := state.workers.set no (.sending result) }
  | some (.sending result) =>
    some { state with
      workers := state.workers.set no .receiving
      channel := state.channel ++ [result] }
  | some .quitting =>
    some { state with
      workers := state.workers.set no .exited
      channel := state.channel ++ [.done] }
  | some .exited => none
  | none => none

inductive RunnerEvent where
  | main
  | worker (no : Nat) (network : Network)

def runnerStep (config : Config) (options : ScanOptions) (state : RunnerState) :
    RunnerEvent → Option RunnerState
  | .main => mainStep options state
  | .worker no network => workerStep config options state no network

end PqcUtils.Scan

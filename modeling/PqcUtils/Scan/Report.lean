import PqcUtils.Library.Runs
import PqcUtils.Scan.Ssh
import PqcUtils.Scan.Tls
import Mathlib.Data.Finset.Sort
import Mathlib.Data.String.Basic

/-!
# The scan report

`create_report` reads result files and gathers, for each protocol, the results of
every host and a few counts. The two branches of its loop keep the same five
variables; the order in which results come is kept for each host.
-/

namespace PqcUtils.Scan

/-! ## Result files -/

/-- `crate_version!()`. -/
def crateVersion : String := "0.8.0"

set_option linter.dupNamespace false in
/-- A time is the text that `to_rfc3339` prints. -/
structure Scan where
  results : List ScanResult
  startTime : String
  endTime : String
  version : String
  scanType : ScanType
  deriving DecidableEq, Repr

inductive InputFile where
  | unreadable (error : String)
  | unparsable
  | parsed (scan : Scan)
  deriving DecidableEq, Repr

structure ScanWindow where
  startTime : String
  endTime : String
  scanType : ScanType
  deriving DecidableEq, Repr

structure ReportResults where
  tlsResults : HashMap String (List ScanResult)
  tlsSortedHosts : Finset String
  tlsSuccessCount : Nat
  tlsFailCount : Nat
  tlsPqcSupportedCount : Nat
  tlsTotalCount : Nat
  sshResults : HashMap String (List ScanResult)
  sshSortedHosts : Finset String
  sshSuccessCount : Nat
  sshFailCount : Nat
  sshPqcSupportedCount : Nat
  sshTotalCount : Nat
  scanWindows : List ScanWindow

/-! ## Gathering -/

structure Tally where
  results : HashMap String (List ScanResult)
  sortedHosts : Finset String
  successCount : Nat
  pqcSupportedCount : Nat
  totalCount : Nat

def Tally.empty : Tally := ⟨∅, ∅, 0, 0, 0⟩

/-- One branch of the loop over the results. -/
def Tally.add (tally : Tally) (targetspec : Target) (result : ScanResult) : Tally where
  sortedHosts := insert targetspec.host tally.sortedHosts
  results := tally.results.update targetspec.host [] (· ++ [result])
  successCount := tally.successCount + if result.error.isNone then 1 else 0
  pqcSupportedCount := tally.pqcSupportedCount + if result.pqcSupported then 1 else 0
  totalCount := tally.totalCount + 1

structure Gathered where
  ssh : Tally
  tls : Tally
  scanWindows : List ScanWindow

def Gathered.empty : Gathered := ⟨.empty, .empty, []⟩

def addResult (gathered : Gathered) (result : ScanResult) : Option Gathered :=
  match result with
  | .ssh targetspec _ _ _ _ _ =>
    some { gathered with ssh := gathered.ssh.add targetspec result }
  | .tls targetspec _ _ _ _ _ _ =>
    some { gathered with tls := gathered.tls.add targetspec result }
  | .done => none

def addFile (gathered : Gathered) (inputFile : String) (file : InputFile) :
    Outcome String Gathered :=
  match file with
  | .unreadable error => .err error
  | .unparsable => .panic
  | .parsed scan =>
    if scan.version ≠ crateVersion then
      .err ("Version mismatch: " ++ scan.version ++ " != " ++ crateVersion ++ " in " ++ inputFile)
    else
      let window : ScanWindow := ⟨scan.startTime, scan.endTime, scan.scanType⟩
      match Runs.run addResult { gathered with scanWindows := gathered.scanWindows ++ [window] }
        scan.results with
      | some gathered => .ok gathered
      | none => .panic

def addFiles (gathered : Gathered) : List (String × InputFile) → Outcome String Gathered
  | [] => .ok gathered
  | (inputFile, file) :: inputFiles => do
    let gathered ← addFile gathered inputFile file
    addFiles gathered inputFiles

/-- A difference of two counters, which must not underflow. -/
def checkedSub (total part : Nat) : Outcome String Nat :=
  if part ≤ total then .ok (total - part) else .panic

/-- `create_report` up to the writing of the report. -/
def createReport (inputFiles : List (String × InputFile)) : Outcome String ReportResults := do
  let gathered ← addFiles .empty inputFiles
  let tlsFailCount ← checkedSub gathered.tls.totalCount gathered.tls.successCount
  let sshFailCount ← checkedSub gathered.ssh.totalCount gathered.ssh.successCount
  pure {
    tlsResults := gathered.tls.results
    tlsSortedHosts := gathered.tls.sortedHosts
    tlsSuccessCount := gathered.tls.successCount
    tlsFailCount
    tlsPqcSupportedCount := gathered.tls.pqcSupportedCount
    tlsTotalCount := gathered.tls.totalCount
    sshResults := gathered.ssh.results
    sshSortedHosts := gathered.ssh.sortedHosts
    sshSuccessCount := gathered.ssh.successCount
    sshFailCount
    sshPqcSupportedCount := gathered.ssh.pqcSupportedCount
    sshTotalCount := gathered.ssh.totalCount
    scanWindows := gathered.scanWindows }

/-! ## One protocol of the report -/

structure ProtocolResults where
  results : HashMap String (List ScanResult)
  sortedHosts : Finset String
  successCount : Nat
  failCount : Nat
  pqcSupportedCount : Nat
  totalCount : Nat

def ReportResults.protocol (report : ReportResults) : ScanType → ProtocolResults
  | .ssh => ⟨report.sshResults, report.sshSortedHosts, report.sshSuccessCount,
      report.sshFailCount, report.sshPqcSupportedCount, report.sshTotalCount⟩
  | .tls => ⟨report.tlsResults, report.tlsSortedHosts, report.tlsSuccessCount,
      report.tlsFailCount, report.tlsPqcSupportedCount, report.tlsTotalCount⟩

/-- The order in which a set of hosts is visited: that of the code points of their names. -/
def inOrder (hosts : Finset String) : List String := hosts.sort (· ≤ ·)

end PqcUtils.Scan

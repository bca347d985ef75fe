import PqcUtils.Dump.Capture
import PqcUtils.Tables

/-!
# The report of a capture

`main` turns the maps of a capture into the lists and counts of the report, one
loop for each map. A hash map is visited in no fixed order, so every loop is
given the order in which it visits its map. A key that does not parse as a socket
address aborts the report.
-/

namespace PqcUtils.Dump

open Net

/-! ## Tables -/

structure TlsGroup where
  name : String
  pqc : Bool
  hybrid : Bool
  desc : String
  href : String
  deriving DecidableEq, Repr

structure TlsCipherSuite where
  name : String
  deriving DecidableEq, Repr

structure Tables where
  kexAlgos : HashMap String KexAlgo
  groups : HashMap UInt16 TlsGroup
  cipherSuites : HashMap UInt16 TlsCipherSuite

def pqcSupportedText : String := "PQC Supported"

def noSupportText : String := "No Support"

structure AlgorithmDetails where
  name : String
  description : String
  pqcStatus : String
  link : String
  deriving DecidableEq, Repr

structure SessionResult where
  source : String
  sourcePort : UInt16
  destination : String
  destinationPort : UInt16
  algorithm : String
  pqcStatus : String
  deriving DecidableEq, Repr

/-! ## The report -/

/-- The sets, maps and counters that the loops of `main` fill. -/
structure Report where
  hosts : Finset String
  pqcHosts : Finset String
  sshHosts : Finset String
  sshHostsPqc : HashMap String String
  sshHostsPqcAlgos : HashMap String (Finset AlgorithmDetails)
  sshSessionsResults : HashMap String (Finset SessionResult)
  sshPqcSupportedCount : Nat
  tlsHosts : Finset String
  tlsHostsPqc : HashMap String String
  tlsHostsCiphers : HashMap String (Finset String)
  tlsHostCapabilities : HashMap String (Finset AlgorithmDetails)
  tlsSessionsResults : HashMap String (Finset SessionResult)
  tlsPqcSupportedCount : Nat

def Report.empty : Report := ⟨∅, ∅, ∅, ∅, ∅, ∅, 0, ∅, ∅, ∅, ∅, ∅, 0⟩

def pqcSupport (pqcSupported : Bool) : String :=
  if pqcSupported then pqcSupportedText else noSupportText

theorem pqcSupport_eq_iff {pqcSupported : Bool} :
    pqcSupport pqcSupported = pqcSupportedText ↔ pqcSupported = true := by
  cases pqcSupported <;> decide

/-! ## SSH hosts and sessions -/

/-- The details of an algorithm a host supports, if the table has it. -/
def kexDetails (kexAlgos : HashMap String KexAlgo) (alg : String) : Finset AlgorithmDetails :=
  match kexAlgos.lookup alg with
  | none => ∅
  | some algo =>
    let description :=
      if algo.isHybrid then "Hybrid" else if algo.pqc then pqcSupportedText else "Not PQC Safe"
    {⟨alg, algo.desc.getD "-", description, algo.href.getD "-"⟩}

def kexPqcSupported (kexAlgos : HashMap String KexAlgo) (caps : HostCapabilities) : Bool :=
  decide (∃ alg ∈ caps.supportedKex, ∃ algo, kexAlgos.lookup alg = some algo ∧
    (algo.pqc || algo.isHybrid) = true)

/-- One host of the loop over `host_caps`. -/
def hostCapsStep (tables : Tables) (report : Report) (entry : String × HostCapabilities) :
    Option Report :=
  let (host, caps) := entry
  let pqcSupported := kexPqcSupported tables.kexAlgos caps
  some { report with
    sshHosts := insert host report.sshHosts
    hosts := insert host report.hosts
    sshHostsPqcAlgos := report.sshHostsPqcAlgos.update host ∅ fun set =>
      set ∪ caps.supportedKex.biUnion (kexDetails tables.kexAlgos)
    pqcHosts := if pqcSupported then insert host report.pqcHosts else report.pqcHosts
    sshHostsPqc := Finmap.insert host (pqcSupport pqcSupported) report.sshHostsPqc }

/-- One session of the loop over `ssh_sessions`. -/
def sshSessionStep (tables : Tables) (report : Report) (entry : FlowKey × SshSession) :
    Option Report :=
  let (flow, session) := entry
  match session.negotiated with
  | none => some report
  | some neg => do
    let src ← SocketAddr.parse flow.src
    let dst ← SocketAddr.parse flow.dst
    let sourceIp := src.ip.display
    let results := report.sshSessionsResults.update sourceIp ∅ id
    match tables.kexAlgos.lookup neg.kex with
    | none => some { report with sshSessionsResults := results }
    | some algo =>
      let description :=
        if algo.pqc then pqcSupportedText else if algo.isHybrid then "Hybrid" else "NOT Supported"
      let result : SessionResult :=
        ⟨sourceIp, src.port, dst.ip.display, dst.port, neg.kex, description⟩
      some { report with
        sshPqcSupportedCount := report.sshPqcSupportedCount + if algo.pqc then 1 else 0
        sshSessionsResults := results.update sourceIp ∅ (insert result) }

/-! ## TLS hosts and sessions -/

def cipherName (cipherSuites : HashMap UInt16 TlsCipherSuite) (id : UInt16) : String :=
  match cipherSuites.lookup id with
  | some cipher => cipher.name
  | none => toString id.toNat

/-- One key of the loop over `tls_ciphers`. -/
def tlsCiphersStep (tables : Tables) (report : Report) (entry : String × Finset UInt16) :
    Option Report := do
  let (key, values) := entry
  let sourceIp ← printedIp key
  some { report with
    tlsHosts := insert sourceIp report.tlsHosts
    tlsHostsCiphers := report.tlsHostsCiphers.update sourceIp ∅ fun cipherSet =>
      cipherSet ∪ values.image (cipherName tables.cipherSuites) }

def groupDetails (groups : HashMap UInt16 TlsGroup) (value : UInt16) : Finset AlgorithmDetails :=
  match groups.lookup value with
  | none => ∅
  | some group =>
    let description :=
      if group.hybrid then "Hybrid" else if group.pqc then "Pure PQC" else "Not PQC safe"
    {⟨group.name, group.desc, description, group.href⟩}

def groupsPqcSupported (groups : HashMap UInt16 TlsGroup) (values : Finset UInt16) : Bool :=
  decide (∃ value ∈ values, ∃ group, groups.lookup value = some group ∧
    (group.hybrid || group.pqc) = true)

/-- One key of the loop over `keyshare_groups`. -/
def keyshareStep (tables : Tables) (report : Report) (entry : String × Finset UInt16) :
    Option Report := do
  let (key, values) := entry
  let sourceIp ← printedIp key
  let pqcSupported := groupsPqcSupported tables.groups values
  some { report with
    hosts := insert sourceIp report.hosts
    tlsHostCapabilities := report.tlsHostCapabilities.update sourceIp ∅ fun set =>
      set ∪ values.biUnion (groupDetails tables.groups)
    pqcHosts := if pqcSupported then insert sourceIp report.pqcHosts else report.pqcHosts
    tlsHostsPqc := Finmap.insert sourceIp (pqcSupport pqcSupported) report.tlsHostsPqc }

/-- `entry(host).or_insert("TLS 1.2")` for one host. -/
def tls12Step (report : Report) (host : String) : Option Report :=
  if host ∈ report.tlsHostsPqc then some report
  else some { report with tlsHostsPqc := Finmap.insert host "TLS 1.2" report.tlsHostsPqc }

/-- One session of the loop over `tls_sessions`. -/
def tlsSessionStep (tables : Tables) (report : Report) (entry : TlsSessionKey × UInt16) :
    Option Report :=
  let (key, value) := entry
  let sourceIp := key.srcIp.display
  let results := report.tlsSessionsResults.update sourceIp ∅ id
  match tables.groups.lookup value with
  | none => some { report with tlsSessionsResults := results }
  | some group =>
    let description :=
      if group.hybrid then "Hybrid" else if group.pqc then "Pure PQC" else "NOT Supported"
    let result : SessionResult :=
      ⟨sourceIp, key.srcPort, key.dstIp.display, key.dstPort, group.name, description⟩
    some { report with
      tlsPqcSupportedCount := report.tlsPqcSupportedCount +
        if group.hybrid || group.pqc then 1 else 0
      tlsSessionsResults := results.update sourceIp ∅ (insert result) }

/-! ## All loops -/

/-- The orders in which the loops visit their maps. -/
structure Orders where
  hostCaps : List (String × HostCapabilities)
  sshSessions : List (FlowKey × SshSession)
  tlsCiphers : List (String × Finset UInt16)
  keyshareGroups : List (String × Finset UInt16)
  tlsHosts : List String
  tlsSessions : List (TlsSessionKey × UInt16)

/-- The loops of `main` one after the other; `none` if one panics. -/
def runReport (tables : Tables) (orders : Orders) : Option Report := do
  let report ← Runs.run (hostCapsStep tables) .empty orders.hostCaps
  let report ← Runs.run (sshSessionStep tables) report orders.sshSessions
  let report ← Runs.run (tlsCiphersStep tables) report orders.tlsCiphers
  let report ← Runs.run (keyshareStep tables) report orders.keyshareGroups
  let report ← Runs.run tls12Step report orders.tlsHosts
  Runs.run (tlsSessionStep tables) report orders.tlsSessions

end PqcUtils.Dump

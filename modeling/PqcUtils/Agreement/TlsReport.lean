import PqcUtils.Agreement.Capture
import PqcUtils.Agreement.Tables
import PqcUtils.Dump.Report.Contents
import Mathlib.Data.String.Basic

/-!
# A TLS scan in a report

Both programs start from the same entries. For a capture of a scan the report has a row
for each connection whose answer chose a known group. So a group with a row under its
own name is listed by the scanner, and the other way round where the server chooses
what it is offered. Both say the same of a group, unless it is hybrid and not
post-quantum.
-/

namespace PqcUtils.Agreement

open Net Scan

/-! ## Rows -/

namespace Probe

def row (probe : Probe) (name : String) (group : TlsGroup) : Dump.SessionResult :=
  Dump.tlsShown probe.client.endpoint probe.client.reverse.endpoint
    ⟨name, group.pqc, group.hybrid, "", ""⟩

structure Between (probe : Probe) (shown : Dump.SessionResult) : Prop where
  source : shown.source = probe.client.source.display
  sourcePort : shown.sourcePort = probe.client.sourcePort
  destination : shown.destination = probe.client.destination.display
  destinationPort : shown.destinationPort = probe.client.destinationPort

theorem Between.endpoints {probe : Probe} {client server : Dump.Endpoint} {group : Dump.TlsGroup}
    (between : probe.Between (Dump.tlsShown client server group)) :
    client = probe.client.endpoint ∧ server = probe.client.reverse.endpoint :=
  ⟨Prod.ext (display_injective between.source) between.sourcePort,
    Prod.ext (display_injective between.destination) between.destinationPort⟩

end Probe

/-! ## The report -/

section Report

variable (table : HashMap String TlsGroup) (suites : HashMap String TlsCipherSuite)
  (hybridAlgosOnly scanNonpqcAlgos : Bool) (probes : String → Probe)

variable {table suites hybridAlgosOnly scanNonpqcAlgos probes} {found : TlsFindings}
  {tables : Dump.Tables} {capture : List (Option Dump.SlicedPacket)} {state : Dump.CaptureState}
  {report : Dump.Report} {host : String} {ciphers sigschemes : List UInt16}

end Report

/-! ## The scan of two groups -/

def groupsByName : List (String × GroupEntry) :=
  [("X25519MLKEM768", ⟨0x11ec, true, true, "with ML-KEM", ""⟩),
    ("x25519", ⟨0x001d, false, false, "Curve25519", ""⟩)]

end PqcUtils.Agreement

import PqcUtils.Dump.Ssh.Negotiation
import PqcUtils.Dump.Keys
import PqcUtils.Dump.Segments
import PqcUtils.Dump.Verdicts
import PqcUtils.Scan.Ssh.Probe
import PqcUtils.Agreement.Ssh
import PqcUtils.Agreement.Tls
import PqcUtils.Dump.Provenance
import PqcUtils.Dump.Report.Counts
import PqcUtils.Scan.Report.Csv
import PqcUtils.Scan.Report.Xml
import PqcUtils.Scan.Ssh.Failures
import PqcUtils.Scan.Runner.QuitMarkers
import PqcUtils.Dump.Reassembly
import PqcUtils.Dump.Ssh.EmptyNames
import PqcUtils.Dump.Tls.Answers
import PqcUtils.Dump.Tls.Stability
import PqcUtils.Scan.Ssh.Bounds
import PqcUtils.Dump.Twice
import PqcUtils.Dump.Tls.BareHellos
import PqcUtils.Scan.Tls.Reply
import PqcUtils.Scan.Addresses
import PqcUtils.Dump.Output.Schedules
import PqcUtils.Dump.Tls.Overruns
import PqcUtils.Scan.Runner.Panics
import PqcUtils.Scan.Runner.Steady
import PqcUtils.Scan.Main
import PqcUtils.Scan.TargetFile
import PqcUtils.Scan.Connecting
import PqcUtils.Dump.Connections
import PqcUtils.Dump.Report.Orders
import PqcUtils.Dump.Report.Growth
import PqcUtils.Dump.Report.Completion
import PqcUtils.Dump.Tables
import PqcUtils.Scan.Tables
import PqcUtils.Dump.Conversations
import PqcUtils.Agreement.Capture
import PqcUtils.Agreement.SshCapture
import PqcUtils.Agreement.Tables
import PqcUtils.Agreement.TlsReport

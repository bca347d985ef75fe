import PqcUtils.Scan.Tls
import PqcUtils.Tables

/-!
# The tables of the scanner

Groups and suites by their names, as they are decoded.
-/

namespace PqcUtils.Scan

def loadGroups (groups : HashMap String GroupEntry) : HashMap String TlsGroup :=
  groups.mapValues fun entry => ⟨entry.groupId, entry.pqc, entry.hybrid⟩

structure TlsCipherSuite where
  cipherSuiteId : UInt16
  deriving DecidableEq, Repr

end PqcUtils.Scan

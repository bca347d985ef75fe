import PqcUtils.Dump.Report
import PqcUtils.Library.Refile

/-!
# The tables of the dump tool

Groups and suites by their numbers. They are decoded by their names, and a loop over
these, in no fixed order, files them anew.
-/

namespace PqcUtils.Dump

/-- The groups under their numbers, each with its name; `groupsByName` is visited in this order. -/
def loadGroups (groupsByName : List (String × GroupEntry)) : HashMap UInt16 TlsGroup :=
  HashMap.refile (fun _ entry => entry.groupId)
    (fun name entry => ⟨name, entry.pqc, entry.hybrid, entry.desc, entry.href⟩) groupsByName

end PqcUtils.Dump

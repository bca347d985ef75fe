import PqcUtils.Library.HashMap

/-!
# The tables

Both programs embed the same files and declare the same records for their entries. What is
decoded from a file is a map from names to entries.
-/

namespace PqcUtils

structure KexAlgo where
  pqc : Bool
  hybrid : Option Bool
  desc : Option String
  href : Option String
  deriving DecidableEq, Repr

/-- `algo.hybrid.unwrap_or(false)`. -/
def KexAlgo.isHybrid (algo : KexAlgo) : Bool := algo.hybrid.getD false

/-- What is read of an entry of `tls_groups.json`. -/
structure GroupEntry where
  groupId : UInt16
  pqc : Bool
  hybrid : Bool
  desc : String
  href : String
  deriving DecidableEq, Repr

end PqcUtils

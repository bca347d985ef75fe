import PqcUtils.Net.Address

/-!
# Targets and scan results
-/

namespace PqcUtils.Scan

structure Target where
  host : String
  port : UInt16
  deriving DecidableEq, Repr

/-- `Display` of a target. -/
def Target.display (target : Target) : String := target.host ++ ":" ++ toString target.port.toNat

inductive ScanResult where
  | ssh (targetspec : Target) (addr error : Option String) (pqcSupported : Bool)
      (pqcAlgos nonpqcAlgos : Option (List String))
  | tls (targetspec : Target) (addr error : Option String) (pqcSupported : Bool)
      (pqcAlgos hybridAlgos nonpqcAlgos : Option (List String))
  | done
  deriving DecidableEq, Repr

namespace ScanResult

def targetspec : ScanResult → Option Target
  | .ssh targetspec _ _ _ _ _ => some targetspec
  | .tls targetspec _ _ _ _ _ _ => some targetspec
  | .done => none

def addr : ScanResult → Option String
  | .ssh _ addr _ _ _ _ => addr
  | .tls _ addr _ _ _ _ _ => addr
  | .done => none

def error : ScanResult → Option String
  | .ssh _ _ error _ _ _ => error
  | .tls _ _ error _ _ _ _ => error
  | .done => none

def pqcSupported : ScanResult → Bool
  | .ssh _ _ _ pqcSupported _ _ => pqcSupported
  | .tls _ _ _ pqcSupported _ _ _ => pqcSupported
  | .done => false

end ScanResult

inductive ScanType where
  | ssh
  | tls
  deriving DecidableEq, Repr

end PqcUtils.Scan

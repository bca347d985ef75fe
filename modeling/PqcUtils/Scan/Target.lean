import PqcUtils.Scan.Result
import PqcUtils.Library.Text

/-!
# Targets on the command line

One target after `-t`, or a file with one target on each line after `-T`. Empty
lines and lines that start with `#` are skipped, so a file may hold no target.
-/

namespace PqcUtils.Scan

open Text

def parseSingleTarget (input : String) (defaultPort : Option UInt16) : Except String Target :=
  match rsplitOnce ':' input with
  | none =>
    match defaultPort with
    | some port => .ok ⟨input, port⟩
    | none =>
      .error ("Could not find :<PORT> in " ++ input ++ " and no default port specified.")
  | some (host, port) =>
    match parseUnsigned 16 port with
    | none => .error "Invalid port. Value not in range [0-65535]."
    | some port => .ok ⟨host, .ofNat port⟩

/-- `BufRead::lines`: the bytes before each line feed, without a carriage return at their end, and
what is behind the last line feed. -/
def readLines (line : Bytes) : Bytes → List Bytes
  | [] => if line = [] then [] else [line]
  | byte :: content =>
    if byte = 10 then
      (if line.getLast? = some 13 then line.dropLast else line) :: readLines [] content
    else readLines (line ++ [byte]) content

/-- The loop over the lines of the file, of which `lineNo` have been read. -/
def parseLines (defaultPort : Option UInt16) : Nat → List Bytes → Except String (List Target)
  | _, [] => .ok []
  | lineNo, line :: lines =>
    match fromUtf8 line with
    | none => .error "stream did not contain valid UTF-8"
    | some line =>
      if line = "" ∨ line.toList.head? = some '#' then
        parseLines defaultPort (lineNo + 1) lines
      else
        match parseSingleTarget line defaultPort with
        | .error error =>
          .error ("Parsing line " ++ toString (lineNo + 1) ++ " (" ++ line ++ ") failed. " ++ error)
        | .ok target => (parseLines defaultPort (lineNo + 1) lines).map (target :: ·)

/-- The two arguments; the file is read as far as it can be. -/
structure TargetArgs where
  target : Option String
  targetList : Option (Except String Bytes)

def getTargets (args : TargetArgs) (defaultPort : Option UInt16) : Except String (List Target) :=
  match args.target with
  | some target => (parseSingleTarget target defaultPort).map ([·])
  | none =>
    match args.targetList with
    | none => .error "specify -t or -T"
    | some (.error error) => .error error
    | some (.ok content) => parseLines defaultPort 0 (readLines [] content)

end PqcUtils.Scan

import PqcUtils.Scan.Result
import PqcUtils.Tables
import PqcUtils.Library.Text

/-!
# The SSH probe

The probe reads an identification line from the server, sends it back, and then
reads one `SSH_MSG_KEXINIT`. Each of the two stages takes the bytes of one read
and looks at nothing else.
-/

namespace PqcUtils.Scan

open Bytes Text

structure KexInitMsg where
  kexAlgos : List String
  hostKeyAlgos : List String
  deriving DecidableEq, Repr

/-! ## Parsing -/

inductive KexError where
  | lessThanFourBytes
  | invalidPacketLength
  | unexpectedEof
  | invalidPacketType
  | invalidUtf8
  | invalidPacket
  deriving DecidableEq, Repr

/-- `read_exact` on a cursor at a position, which may be behind the end. -/
def readExact (buf : Bytes) (position count : Nat) : Option Bytes :=
  if count ≤ (buf.drop position).length then some ((buf.drop position).take count) else none

def readU8 (buf : Bytes) (position : Nat) : Option UInt8 :=
  match readExact buf position 1 with
  | some [a] => some a
  | _ => none

def readU32 (buf : Bytes) (position : Nat) : Option UInt32 :=
  match readExact buf position 4 with
  | some [a, b, c, d] => some (be32 a b c d)
  | _ => none

/-- The names and the position behind them. A length that cannot be read is unwrapped. -/
def parseSshNameList (buf : Bytes) (position : Nat) : Outcome KexError (List String × Nat) :=
  match readU32 buf position with
  | none => .panic
  | some sz =>
    match readExact buf (position + 4) sz.toNat with
    | none => .err .unexpectedEof
    | some bytes =>
      match fromUtf8 bytes with
      | none => .err .invalidUtf8
      | some algoStr => .ok (splitOn ',' algoStr, position + 4 + sz.toNat)

def parseSshNameLists (buf : Bytes) : Nat → Nat → Outcome KexError (List (List String) × Nat)
  | 0, position => pure ([], position)
  | count + 1, position => do
    let (algos, position) ← parseSshNameList buf position
    let (lists, position) ← parseSshNameLists buf count position
    pure (algos :: lists, position)

def parseSshMsgKexinit (buf : Bytes) : Outcome KexError KexInitMsg := do
  let bl : UInt32 := .ofNat buf.length
  Outcome.rejectIf (bl < 4) .lessThanFourBytes
  let pktSize ← Outcome.ofOption .unexpectedEof (readU32 buf 0)
  Outcome.rejectIf (bl - 4 < pktSize) .invalidPacketLength
  let paddingLen ← Outcome.ofOption .unexpectedEof (readU8 buf 4)
  let msgType ← Outcome.ofOption .unexpectedEof (readU8 buf 5)
  Outcome.rejectIf (msgType ≠ 20) .invalidPacketType
  let position := 6 + 16
  let (kexAlgos, position) ← parseSshNameList buf position
  let (srvHostKeyAlgos, position) ← parseSshNameList buf position
  let (_, position) ← parseSshNameLists buf 8 position
  let endOfPkt := position + paddingLen.toNat + 5
  Outcome.rejectIf (bl.toNat ≠ endOfPkt) .invalidPacket
  pure ⟨kexAlgos, srvHostKeyAlgos⟩

/-! ## The connection -/

/-- What a wait for the stream and a read of it bring. -/
inductive ReadEvent where
  | received (bytes : Bytes)
  | wouldBlock
  | failed (error : String)
  | notReadable (error : String)
  deriving DecidableEq, Repr

inductive WriteEvent where
  | written
  | timedOut
  | notWritable (error : String)
  | failed (error : String)
  deriving DecidableEq, Repr

/-- The reads until nothing more comes and the probe times out, and the one write. -/
structure Connection where
  reads : List ReadEvent
  write : WriteEvent
  deriving DecidableEq, Repr

inductive RecvError where
  | closed
  | timeout
  | notReadable (error : String)
  | read (error : String)
  | kexinit (error : KexError)
  deriving DecidableEq, Repr

def sshRecvKexinit : List ReadEvent → Outcome RecvError KexInitMsg
  | [] => .err .timeout
  | .wouldBlock :: reads => sshRecvKexinit reads
  | .notReadable error :: _ => .err (.notReadable error)
  | .failed error :: _ => .err (.read error)
  | .received [] :: _ => .err .closed
  | .received bytes :: _ =>
    match parseSshMsgKexinit bytes with
    | .ok msg => .ok msg
    | .err error => .err (.kexinit error)
    | .panic => .panic

def sshPrefix : Bytes := [83, 83, 72, 45]

def sshEchobackIdstring (write : WriteEvent) : List ReadEvent → Except String (List ReadEvent)
  | [] => .error "Timeout waiting for SSH identification string"
  | .wouldBlock :: reads => sshEchobackIdstring write reads
  | .notReadable _ :: _ => .error "Stream not readable"
  | .failed error :: _ => .error ("Read error: " ++ error)
  | .received [] :: _ => .error "Connection closed"
  | .received bytes :: reads =>
    if bytes.length < 4 ∨ ¬sshPrefix <+: bytes then
      .error "Not an SSH server - identification string does not start with 'SSH-'"
    else
      match write with
      | .written => .ok reads
      | .timedOut => .error "Timeout waiting for SSH identification string"
      | .notWritable error => .error ("Stream not writable: " ++ error)
      | .failed error => .error ("Write failed: " ++ error)

/-! ## The scan -/

structure KexClasses where
  pqcSupported : Bool
  pqcAlgos : List String
  nonpqcAlgos : List String
  deriving DecidableEq, Repr

def classifyStep (kexAlgos : HashMap String KexAlgo) (classes : KexClasses) (k : String) :
    KexClasses :=
  match kexAlgos.lookup k with
  | none => classes
  | some a =>
    if a.pqc then
      { classes with pqcSupported := true, pqcAlgos := classes.pqcAlgos ++ [k] }
    else
      { classes with nonpqcAlgos := classes.nonpqcAlgos ++ [k] }

def classifyKex (kexAlgos : HashMap String KexAlgo) (names : List String) : KexClasses :=
  names.foldl (classifyStep kexAlgos) ⟨false, [], []⟩

/-- The table has the name, and calls it post-quantum or not. -/
def knownAs (kexAlgos : HashMap String KexAlgo) (pqc : Bool) (name : String) : Bool :=
  (kexAlgos.lookup name).any fun a => a.pqc == pqc

theorem classifyKex_eq (kexAlgos : HashMap String KexAlgo) (names : List String) :
    classifyKex kexAlgos names =
      ⟨names.any (knownAs kexAlgos true), names.filter (knownAs kexAlgos true),
        names.filter (knownAs kexAlgos false)⟩ := by
  suffices loop : ∀ classes : KexClasses, names.foldl (classifyStep kexAlgos) classes =
      ⟨classes.pqcSupported || names.any (knownAs kexAlgos true),
        classes.pqcAlgos ++ names.filter (knownAs kexAlgos true),
        classes.nonpqcAlgos ++ names.filter (knownAs kexAlgos false)⟩ by
    simpa [classifyKex] using loop ⟨false, [], []⟩
  induction names with
  | nil => simp
  | cons k names ih =>
    intro classes
    rw [List.foldl_cons, ih]
    cases found : kexAlgos.lookup k with
    | none => simp [classifyStep, knownAs, found]
    | some a => cases pqc : a.pqc <;> simp [classifyStep, knownAs, found, pqc]

/-- `ssh_scan_target` for what connecting brings: an error, or an address and a connection. A
parser that panics takes the task down with it. -/
def sshScanTarget (kexAlgos : HashMap String KexAlgo) (target : Target)
    (connected : Except String (String × Connection)) : Option ScanResult :=
  match connected with
  | .error error => some (.ssh target none (some error) false none none)
  | .ok (addr, connection) =>
    match sshEchobackIdstring connection.write connection.reads with
    | .error error =>
      some (.ssh target (some addr) (some ("Failed to exchange SSH ID string: " ++ error))
        false none none)
    | .ok reads =>
      match sshRecvKexinit reads with
      | .panic => none
      | .err _ => some (.ssh target (some addr) none false (some []) (some []))
      | .ok ki =>
        let classes := classifyKex kexAlgos ki.kexAlgos
        some (.ssh target (some addr) none classes.pqcSupported (some classes.pqcAlgos)
          (some classes.nonpqcAlgos))

end PqcUtils.Scan

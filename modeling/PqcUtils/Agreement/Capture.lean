import PqcUtils.Dump.Handshakes
import PqcUtils.Scan.Tls.Reply

/-!
# A TLS scan in a capture

The scanner connects once for each group, offers no key share, and takes any server
hello for support of the group. The dump tool records a session at any server hello.
So the scan lists a group exactly if its connection has a session in a capture of
the scan. The group of that session is the one the server has sent a key for, if any.
-/

namespace PqcUtils.Agreement

open Bytes Scan

/-! ## The hello of the scanner -/

section Hello

variable {host : String} {group : UInt16} {ciphers sigschemes : List UInt16}
  {random sessionId : List.Vector UInt8 32} {hello : Bytes}

end Hello

/-! ## Answers -/

/-- What a server sends for a hello: a server hello of version 3.3 in a record, or an alert, and
whatever follows it in the same segment. -/
inductive Answer where
  | hello (message : Wire.ServerHello) (version : message.version = 0x0303)
      (fits : message.body.length + 4 < 2 ^ 16) (behind : Bytes)
  | alert (level description : UInt8) (behind : Bytes)

namespace Answer

def payload : Answer → Bytes
  | hello message _ _ behind => message.record 3 ++ behind
  | alert level description behind => [0x15, 0x03, 0x03, 0x00, 0x02, level, description] ++ behind

/-- What one read brings of it. -/
def reply (answer : Answer) : Reply := ⟨answer.payload.take bufferSize, List.length_take_le _ _⟩

def group : Answer → Option UInt16
  | hello message _ _ _ => some (message.chosenGroup.getD 0)
  | alert _ _ _ => none

theorem long (answer : Answer) : 6 ≤ answer.payload.length := by
  cases answer with
  | hello message =>
    simp [payload, Wire.ServerHello.record]
    omega
  | alert => simp [payload]

end Answer

/-! ## The connection of one group -/

/-- Where the hello is sent from and to, what it is filled with, and what it is answered. -/
structure Probe where
  client : Dump.Sender
  random : List.Vector UInt8 32
  sessionId : List.Vector UInt8 32
  answer : Answer

namespace Probe

def stream (probe : Probe) : TlsStream := ⟨fun _ => .ok (), .ok probe.answer.reply⟩

def sessionKey (probe : Probe) : Dump.TlsSessionKey :=
  Dump.sessionKey probe.client.reverse.endpoint probe.client.endpoint

section Captured

variable {probe : Probe} {host : String} {group : UInt16} {ciphers sigschemes : List UInt16}
  {capture : List (Option Dump.SlicedPacket)} {state : Dump.CaptureState}

end Captured

end Probe

/-! ## The scan -/

section Scan

variable (table : HashMap String TlsGroup) (hybridAlgosOnly scanNonpqcAlgos : Bool)
  (probes : String → Probe) (state : Dump.CaptureState)

variable {table hybridAlgosOnly scanNonpqcAlgos probes state}

end Scan

/-! ## A scan of two groups -/

end PqcUtils.Agreement

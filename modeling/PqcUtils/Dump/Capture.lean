import PqcUtils.Dump.Ssh
import PqcUtils.Dump.Tls

/-!
# Processing a capture

`process_packet` hands the payload of every TCP packet to the SSH and TLS
recorders, and then the bytes the reassembler returns for it, if any. Both times
the payload is dispatched on its first bytes by `process_packet_helper`.
-/

namespace PqcUtils.Dump

open Net

/-- Everything `process_packet` is handed besides the packet. -/
structure CaptureState where
  reassembler : TcpReassembler
  ssh : SshStore
  tls : TlsStore

def CaptureState.empty : CaptureState := ⟨∅, .empty, .empty⟩

/-- The first bytes of a TLS handshake record of version 3.0 to 3.4. -/
def isTlsHandshake (payload : Bytes) : Prop :=
  5 < payload.length ∧ payload[0]? = some 0x16 ∧ payload[1]? = some 0x03 ∧
    ∃ minor, payload[2]? = some minor ∧ minor ≤ 0x04

instance (payload : Bytes) : Decidable (isTlsHandshake payload) :=
  inferInstanceAs (Decidable (_ ∧ _ ∧ _ ∧ ∃ minor, _ = some minor ∧ _))

/-- `process_packet_helper`; `none` if it panics. -/
def processPacketHelper (packet : SlicedPacket) (payload : Bytes) (tcp : TcpSlice)
    (state : CaptureState) : Option CaptureState := do
  let messageNumber ← payload[5]?
  let ssh ← (if messageNumber = sshMsgKexinit then processSsh packet payload state.ssh
    else some state.ssh)
  let tls ← (if isTlsHandshake payload then processSslHello packet payload tcp state.tls
    else some state.tls)
  some { state with ssh, tls }

def tcpFlowKey (source destination : IpAddr) (tcp : TcpSlice) : TcpFlowKey :=
  ⟨source.display, destination.display, tcp.sourcePort, tcp.destinationPort⟩

/-- `process_packet` on what the slicer returned, nothing if it failed; `none` if it panics. -/
def processPacket (sliced : Option SlicedPacket) (state : CaptureState) : Option CaptureState :=
  match sliced with
  | none => some state
  | some packet =>
    match packet.addresses, packet.tcp with
    | some (source, destination), some tcp =>
      if tcp.payload.length < 6 then
        some state
      else do
        let state ← processPacketHelper packet tcp.payload tcp state
        let (joined, reassembler) := TcpReassembler.push state.reassembler
          (tcpFlowKey source destination tcp) tcp.sequenceNumber tcp.payload
        let state := { state with reassembler }
        match joined with
        | some data => processPacketHelper packet data tcp state
        | none => some state
    | _, _ => some state

def captureStep (state : CaptureState) (sliced : Option SlicedPacket) : Option CaptureState :=
  processPacket sliced state

def runCapture (capture : List (Option SlicedPacket)) : Option CaptureState :=
  Runs.run captureStep .empty capture

end PqcUtils.Dump

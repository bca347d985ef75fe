import PqcUtils.Library.HashMap
import PqcUtils.Net.Address

/-!
# Captured packets and TCP reassembly

A captured packet as the slicer hands it over, and the joiner that is meant to
put the segments of a flow back together. Sequence numbers wrap.
-/

namespace PqcUtils.Dump

open Net

/-! ## Sliced packets -/

structure TcpSlice where
  sourcePort : UInt16
  destinationPort : UInt16
  sequenceNumber : UInt32
  payload : Bytes
  deriving DecidableEq, Repr

inductive NetSlice where
  | ipv4 (source destination : Ipv4Addr)
  | ipv6 (source destination : Ipv6Addr)
  | arp
  deriving DecidableEq, Repr

inductive TransportSlice where
  | tcp (tcp : TcpSlice)
  | other
  deriving DecidableEq, Repr

structure SlicedPacket where
  net : Option NetSlice
  transport : Option TransportSlice
  deriving DecidableEq, Repr

namespace SlicedPacket

def addresses (packet : SlicedPacket) : Option (IpAddr × IpAddr) :=
  match packet.net with
  | some (.ipv4 source destination) => some (.v4 source, .v4 destination)
  | some (.ipv6 source destination) => some (.v6 source, .v6 destination)
  | _ => none

def tcp (packet : SlicedPacket) : Option TcpSlice :=
  match packet.transport with
  | some (.tcp tcp) => some tcp
  | _ => none

end SlicedPacket

/-! ## The joiner -/

structure TcpFlowKey where
  src : String
  dst : String
  sport : UInt16
  dport : UInt16
  deriving DecidableEq, Repr

structure TcpJoiner where
  nextSeq : UInt32
  buffer : Bytes
  deriving DecidableEq, Repr

def TcpJoiner.new (seq : UInt32) : TcpJoiner := ⟨seq, []⟩

/-- One segment. An in-sequence segment hands out the buffer and leaves it empty; any other
segment becomes the whole buffer. -/
def TcpJoiner.push (joiner : TcpJoiner) (seq : UInt32) (payload : Bytes) :
    Option Bytes × TcpJoiner :=
  if payload.isEmpty then
    (none, joiner)
  else if seq = joiner.nextSeq then
    (some (joiner.buffer ++ payload), ⟨joiner.nextSeq + .ofNat payload.length, []⟩)
  else
    (none, ⟨seq + .ofNat payload.length, payload⟩)

abbrev TcpReassembler := HashMap TcpFlowKey TcpJoiner

def TcpReassembler.push (flows : TcpReassembler) (key : TcpFlowKey) (seq : UInt32)
    (payload : Bytes) : Option Bytes × TcpReassembler :=
  let stream := (flows.lookup key).getD (TcpJoiner.new seq)
  let (joined, stream) := stream.push seq payload
  (joined, Finmap.insert key stream flows)

theorem TcpJoiner.push_inSequence (joiner : TcpJoiner) {payload : Bytes} (nonempty : payload ≠ []) :
    joiner.push joiner.nextSeq payload =
      (some (joiner.buffer ++ payload), ⟨joiner.nextSeq + .ofNat payload.length, []⟩) := by
  simp [push, nonempty]

/-- Nothing is kept behind an in-sequence segment, so the next one is handed out alone. -/
theorem TcpReassembler.push_inSequence (flows : TcpReassembler) {key : TcpFlowKey} {seq : UInt32}
    {payload : Bytes} (nonempty : payload ≠ [])
    (expected : flows.lookup key = none ∨ flows.lookup key = some (TcpJoiner.new seq)) :
    flows.push key seq payload =
      (some payload, Finmap.insert key (TcpJoiner.new (seq + .ofNat payload.length)) flows) := by
  have stream : (flows.lookup key).getD (TcpJoiner.new seq) = TcpJoiner.new seq := by
    rcases expected with absent | present <;> simp [*]
  have pushed : (TcpJoiner.new seq).push seq payload =
      (some payload, TcpJoiner.new (seq + .ofNat payload.length)) :=
    TcpJoiner.push_inSequence (TcpJoiner.new seq) nonempty
  simp only [push, stream, pushed]

end PqcUtils.Dump

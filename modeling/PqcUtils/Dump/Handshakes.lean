import PqcUtils.Dump.Connections
import PqcUtils.Dump.Provenance

/-!
# One handshake in a capture

On a connection a client sends its hello, and the server answers. Whatever else a
capture holds, what is recorded of this connection is told by the answer alone.
-/

namespace PqcUtils.Dump

open Net Runs

/-! ## Both directions -/

def NetSlice.reverse : NetSlice → NetSlice
  | .ipv4 source destination => .ipv4 destination source
  | .ipv6 source destination => .ipv6 destination source
  | .arp => .arp

namespace Sender

theorem addresses_reverse (sender : Sender) (transport : Option TransportSlice) :
    (SlicedPacket.mk (some sender.net.reverse) transport).addresses =
      some (sender.destination, sender.source) := by
  obtain ⟨net, source, destination, sourcePort, destinationPort, addresses⟩ := sender
  have forward := addresses transport
  cases net with
  | ipv4 | ipv6 =>
    cases forward
    rfl
  | arp => cases forward

def reverse (sender : Sender) : Sender where
  net := sender.net.reverse
  source := sender.destination
  destination := sender.source
  sourcePort := sender.destinationPort
  destinationPort := sender.sourcePort
  addresses := sender.addresses_reverse

def endpoint (sender : Sender) : Endpoint := (sender.source, sender.sourcePort)

def connection (sender : Sender) : Sym2 Endpoint := s(sender.endpoint, sender.reverse.endpoint)

theorem sent (sender : Sender) (seq : UInt32) {payload : Bytes} (long : 6 ≤ payload.length) :
    Dispatch.Sent (sender.packet seq payload, payload) sender.endpoint sender.reverse.endpoint :=
  ⟨(sender.carries seq long).endpoints, long⟩

end Sender

/-! ## Dispatches of a packet -/

theorem Sender.mem_dispatchesOf (sender : Sender) (seq : UInt32) {payload : Bytes}
    (long : 6 ≤ payload.length) (flows : TcpReassembler) :
    (sender.packet seq payload, payload) ∈
      (dispatchesOf flows (some (sender.packet seq payload))).1 := by
  rw [dispatchesOf_of_carries (sender.carries seq long)]
  simp [Sender.segment]

theorem Sender.mem_dispatches {sender : Sender} {seq : UInt32} {payload : Bytes}
    (long : 6 ≤ payload.length) {capture : List (Option SlicedPacket)}
    (among : some (sender.packet seq payload) ∈ capture) (flows : TcpReassembler) :
    (sender.packet seq payload, payload) ∈ dispatches flows capture := by
  induction capture generalizing flows with
  | nil => cases among
  | cons sliced capture ih =>
    rcases List.mem_cons.mp among with rfl | later
    · exact List.mem_append_left _ (sender.mem_dispatchesOf seq long flows)
    · exact List.mem_append_right _ (ih later _)

def groupAlong (server client : Endpoint) (dispatch : Dispatch) : Option UInt16 :=
  if dispatch.1.endpoints = some (server, client) then serverGroup dispatch.2 else none

def lastGroup (row : List Dispatch) (server client : Endpoint) : Option UInt16 :=
  row.reverse.findSome? (groupAlong server client)

theorem lookup_tlsSessions {row : List Dispatch} {store : TlsStore}
    (sent : ∀ dispatch ∈ row, ∃ source destination, dispatch.Sent source destination)
    (result : runTls row = some store) (server client : Endpoint) :
    store.tlsSessions.lookup (sessionKey server client) = lastGroup row server client := by
  have written := overwritten_of_run
    (fun store : TlsStore => store.tlsSessions.lookup (sessionKey server client))
    (groupAlong server client) ?_ result
  · rw [written, ← lastGroup]
    simp [TlsStore.empty]
  intro dispatch membership before after stepped
  obtain ⟨source, destination, now⟩ := sent dispatch membership
  rw [(tlsStep_effect now stepped).sessions, groupAlong, now.endpoints]
  cases set : serverGroup dispatch.2 with
  | none => simp
  | some group =>
    simp only [HashMap.lookup_insert_eq, sessionKey_inj, Option.some.injEq, Prod.mk.injEq]
    by_cases same : server = source ∧ client = destination
    · rw [if_pos same, if_pos ⟨same.1.symm, same.2.symm⟩, Option.some_or]
    · rw [if_neg same, if_neg fun both => same ⟨both.1.symm, both.2.symm⟩, Option.none_or]

theorem exists_answer_of_lastGroup {row : List Dispatch}
    (sent : ∀ dispatch ∈ row, ∃ source destination, dispatch.Sent source destination)
    {server client : Endpoint} {group : UInt16} (last : lastGroup row server client = some group) :
    ∃ dispatch ∈ row, dispatch.Sent server client ∧ serverGroup dispatch.2 = some group := by
  obtain ⟨dispatch, membership, set⟩ := List.exists_of_findSome?_eq_some last
  have among := List.mem_reverse.mp membership
  obtain ⟨source, destination, now⟩ := sent dispatch among
  rw [groupAlong] at set
  split at set
  · next endpoints => exact ⟨dispatch, among, ⟨endpoints, now.long⟩, set⟩
  · cases set

theorem connectionOf_of_mem_dispatchesOf {flows : TcpReassembler} {sliced : Option SlicedPacket}
    {dispatch : Dispatch} (membership : dispatch ∈ (dispatchesOf flows sliced).1)
    {source destination : Endpoint} (sent : dispatch.Sent source destination) :
    connectionOf (some dispatch.1) = some s(source, destination) := by
  rcases carries_or_skipped sliced with ⟨packet, _, _, tcp, rfl, carries⟩ | skipped
  · obtain ⟨same, -⟩ := mem_dispatchesOf membership
    obtain rfl := Option.some.inj same
    have long : ¬tcp.payload.length < 6 := Nat.not_lt.mpr carries.long
    have endpoints := carries.endpoints.symm.trans sent.endpoints
    rw [Option.some.injEq, Prod.mk.injEq] at endpoints
    rw [connectionOf, carries.addresses, carries.tcp, ← endpoints.1, ← endpoints.2]
    exact if_neg long
  · rw [dispatchesOf_of_not_carries skipped] at membership
    cases membership

theorem connectionOf_of_mem_dispatches {flows : TcpReassembler}
    {capture : List (Option SlicedPacket)} {dispatch : Dispatch}
    (membership : dispatch ∈ dispatches flows capture) {source destination : Endpoint}
    (sent : dispatch.Sent source destination) :
    connectionOf (some dispatch.1) = some s(source, destination) := by
  induction capture generalizing flows with
  | nil => cases membership
  | cons sliced capture ih =>
    rcases List.mem_append.mp membership with now | later
    · exact connectionOf_of_mem_dispatchesOf now sent
    · exact ih later

def Sender.exchange (client : Sender) (hello reply : Bytes) (seq seq' : UInt32) :
    List (Option SlicedPacket) :=
  [some (client.packet seq hello), some (client.reverse.packet seq' reply)]

section Exchange

variable {client : Sender} {hello reply : Bytes}

variable {capture : List (Option SlicedPacket)} {state : CaptureState}

end Exchange

end PqcUtils.Dump

import PqcUtils.Dump.Recording
import PqcUtils.Dump.Ssh.Store

/-!
# Reading the TLS keys back

The report parses every key of the TLS maps as a socket address and aborts if it
cannot. The recorder writes the address and the port with a colon between them,
which reads back for IPv4 and never for IPv6.
-/

namespace PqcUtils.Dump

open Net

/-- The report can read the key, and finds this endpoint in it. -/
def ReadsBack (key : String) (endpoint : Endpoint) : Prop :=
  ∃ address, SocketAddr.parse key = some address ∧ address.ip = endpoint.1 ∧
    address.port = endpoint.2

theorem readsBack_tlsKey_v4 (ip : Ipv4Addr) (port : UInt16) :
    ReadsBack (tlsKey (.v4 ip) port) (.v4 ip, port) :=
  ⟨.v4 ip port, parse_v4 ip port, rfl, rfl⟩

/-- Without brackets around it, an IPv6 address cannot be told from its port. -/
theorem not_readsBack_tlsKey_v6 (ip : Ipv6Addr) (port : UInt16) (endpoint : Endpoint) :
    ¬ReadsBack (tlsKey (.v6 ip) port) endpoint := by
  rintro ⟨address, read, -⟩
  rw [tlsKey, parse_v6_bare] at read
  cases read

/-- After the capture every key of the report reads back as a sender that was recorded, and every
sender that was recorded has a key that reads back as it. -/
structure KeysReadBack (capture : List (Option SlicedPacket)) (state : CaptureState) : Prop where
  keys : ∀ key, state.tls.HasKey key →
    ∃ endpoint, RecordedBy capture endpoint ∧ ReadsBack key endpoint
  recorded : ∀ endpoint, RecordedBy capture endpoint →
    ∃ key, state.tls.HasKey key ∧ ReadsBack key endpoint

/-- The keys read back exactly when no hello of an IPv6 sender was recorded. -/
theorem keysReadBack_iff {capture : List (Option SlicedPacket)} {state : CaptureState}
    (result : runCapture capture = some state) :
    KeysReadBack capture state ↔
      ∀ endpoint, RecordedBy capture endpoint → ∃ ip, endpoint.1 = .v4 ip := by
  have present (key : String) := (recorded_of_run result).keys key
  constructor
  · rintro readBack ⟨ip, port⟩ recorded
    obtain ⟨other, -, read⟩ := readBack.keys _ ((present _).mpr ⟨(ip, port), recorded, rfl⟩)
    cases ip with
    | v4 ip => exact ⟨ip, rfl⟩
    | v6 ip => exact absurd read (not_readsBack_tlsKey_v6 ip port other)
  · intro ipv4
    have reads (endpoint : Endpoint) (recorded : RecordedBy capture endpoint) :
        ReadsBack (tlsKey endpoint.1 endpoint.2) endpoint := by
      obtain ⟨ip, port⟩ := endpoint
      obtain ⟨ip, rfl⟩ := ipv4 _ recorded
      exact readsBack_tlsKey_v4 ip port
    constructor
    · intro key stored
      obtain ⟨endpoint, recorded, rfl⟩ := (present key).mp stored
      exact ⟨endpoint, recorded, reads endpoint recorded⟩
    · intro endpoint recorded
      exact ⟨_, (present _).mpr ⟨endpoint, recorded, rfl⟩, reads endpoint recorded⟩

theorem RecordedBy.sender {capture : List (Option SlicedPacket)} {endpoint : Endpoint}
    (recorded : RecordedBy capture endpoint) :
    ∃ packet, some packet ∈ capture ∧
      ∃ destination, packet.addresses = some (endpoint.1, destination) := by
  obtain ⟨past, sliced, rest, state, rfl, -, packet, destination, tcp, config, rfl, carries, -⟩ :=
    recorded
  exact ⟨packet, by simp, destination, carries.addresses⟩

/-! ## The same hello over both families -/

def helloOver (net : NetSlice) : SlicedPacket :=
  ⟨some net, some (.tcp ⟨50000, 443, 1, Wire.smallHello.record 1⟩)⟩

def helloOverIpv4 : SlicedPacket := helloOver (.ipv4 ⟨127, 0, 0, 1⟩ ⟨127, 0, 0, 1⟩)

def helloOverIpv6 : SlicedPacket :=
  let loopback : Ipv6Addr := ⟨[0, 0, 0, 0, 0, 0, 0, 1], rfl⟩
  helloOver (.ipv6 loopback loopback)

/-- The key of an IPv6 sender, with which the report aborts. -/
theorem ipv6_key_unreadable : ∃ state, runCapture [some helloOverIpv6] = some state ∧
    state.tls.HasKey "::1:50000" ∧ SocketAddr.parse "::1:50000" = none ∧
    ¬KeysReadBack [some helloOverIpv6] state := by
  have present : (runCapture [some helloOverIpv6]).map
      (fun state => decide ("::1:50000" ∈ state.tls.tlsCiphers)) = some true := by
    decide +kernel
  have unreadable : SocketAddr.parse "::1:50000" = none := by decide +kernel
  obtain ⟨state, result, key⟩ := Option.map_eq_some_iff.mp present
  refine ⟨state, result, .inl (of_decide_eq_true key), unreadable, ?_⟩
  intro readBack
  obtain ⟨endpoint, -, address, read, -⟩ :=
    readBack.keys "::1:50000" (.inl (of_decide_eq_true key))
  rw [unreadable] at read
  cases read

theorem ipv4_key_readable : ∃ state, runCapture [some helloOverIpv4] = some state ∧
    state.tls.HasKey "127.0.0.1:50000" ∧ KeysReadBack [some helloOverIpv4] state := by
  have present : (runCapture [some helloOverIpv4]).map
      (fun state => decide ("127.0.0.1:50000" ∈ state.tls.tlsCiphers)) = some true := by
    decide +kernel
  obtain ⟨state, result, key⟩ := Option.map_eq_some_iff.mp present
  refine ⟨state, result, .inl (of_decide_eq_true key), (keysReadBack_iff result).mpr ?_⟩
  intro endpoint recorded
  obtain ⟨packet, membership, destination, addresses⟩ := recorded.sender
  cases List.mem_singleton.mp membership
  obtain ⟨source, -⟩ := Prod.mk.inj (Option.some.inj addresses)
  exact ⟨_, source.symm⟩

end PqcUtils.Dump

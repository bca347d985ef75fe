import PqcUtils.Dump.Recording

/-!
# A hello in several segments

Segments that follow each other are handed to the parsers one at a time: the
joiner has nothing left of the earlier ones. So a run over them records what each
segment carries by itself, and the first part of a cut hello carries nothing.
-/

namespace PqcUtils.Dump

open Bytes Net

structure Sender where
  net : NetSlice
  source : IpAddr
  destination : IpAddr
  sourcePort : UInt16
  destinationPort : UInt16
  addresses : ∀ transport,
    (SlicedPacket.mk (some net) transport).addresses = some (source, destination)

namespace Sender

def segment (sender : Sender) (seq : UInt32) (payload : Bytes) : TcpSlice :=
  ⟨sender.sourcePort, sender.destinationPort, seq, payload⟩

def packet (sender : Sender) (seq : UInt32) (payload : Bytes) : SlicedPacket :=
  ⟨some sender.net, some (.tcp (sender.segment seq payload))⟩

def packets (sender : Sender) : UInt32 → List Bytes → List (Option SlicedPacket)
  | _, [] => []
  | seq, payload :: payloads =>
    some (sender.packet seq payload) :: sender.packets (seq + .ofNat payload.length) payloads

def key (sender : Sender) : String := tlsKey sender.source sender.sourcePort

def flow (sender : Sender) : TcpFlowKey :=
  ⟨sender.source.display, sender.destination.display, sender.sourcePort, sender.destinationPort⟩

theorem carries (sender : Sender) (seq : UInt32) {payload : Bytes} (long : 6 ≤ payload.length) :
    (sender.packet seq payload).Carries sender.source sender.destination
      (sender.segment seq payload) :=
  ⟨sender.addresses _, rfl, long⟩

/-- The reassembler expects this sequence number, or has not seen the flow yet. -/
def Expects (sender : Sender) (seq : UInt32) (state : CaptureState) : Prop :=
  state.reassembler.lookup sender.flow = none ∨
    state.reassembler.lookup sender.flow = some (TcpJoiner.new seq)

/-- The joiner hands an expected segment out alone. -/
theorem packetConfig_of_expects {sender : Sender} {seq : UInt32} {state : CaptureState}
    {payload : Bytes} (expected : sender.Expects seq state) (long : 6 ≤ payload.length) :
    packetConfig state sender.source sender.destination (sender.segment seq payload) =
      (payloadConfig payload).map fun config =>
        ⟨config.ciphers ++ config.ciphers, config.keyshareGroups ++ config.keyshareGroups⟩ := by
  have nonempty : payload ≠ [] := by
    rintro rfl
    simp at long
  have pushed := TcpReassembler.push_inSequence state.reassembler nonempty expected
  have twice : dispatched state sender.source sender.destination (sender.segment seq payload) =
      [payload, payload] := by
    rw [dispatched]
    simp only [segment, tcpFlowKey] at pushed ⊢
    rw [← flow, pushed]
    rfl
  rw [packetConfig, twice]
  cases configEq : payloadConfig payload <;> simp [configEq]

end Sender

/-- The TLS maps have gained, under the key, what the payloads carry. -/
structure TlsStore.Gains (before : TlsStore) (key : String) (payloads : List Bytes)
    (after : TlsStore) : Prop where
  complete : ∀ payload ∈ payloads, payloadConfig payload ≠ none
  ciphers : ∀ cs, cs ∈ valuesAt after.tlsCiphers key ↔ cs ∈ valuesAt before.tlsCiphers key ∨
    ∃ payload ∈ payloads, ∃ config, payloadConfig payload = some config ∧ cs ∈ config.ciphers
  groups : ∀ group, group ∈ valuesAt after.keyshareGroups key ↔
    group ∈ valuesAt before.keyshareGroups key ∨ ∃ payload ∈ payloads, ∃ config,
      payloadConfig payload = some config ∧ group ∈ config.keyshareGroups

theorem TlsStore.Gains.nil (store : TlsStore) (key : String) : store.Gains key [] store :=
  ⟨by simp, by simp, by simp⟩

theorem TlsStore.Gains.cons {before between after : TlsStore} {key : String} {payload : Bytes}
    {payloads : List Bytes} {config : CryptoConfig} (configEq : payloadConfig payload = some config)
    (taken : before.Takes key ⟨config.ciphers ++ config.ciphers,
      config.keyshareGroups ++ config.keyshareGroups⟩ between)
    (gains : between.Gains key payloads after) : before.Gains key (payload :: payloads) after where
  complete := by simpa [configEq] using gains.complete
  ciphers cs := by
    rw [gains.ciphers, taken.ciphers, mem_valuesAt_insertAllAt]
    simp [configEq, or_assoc]
  groups group := by
    rw [gains.groups, taken.groups, mem_valuesAt_insertAllAt]
    simp [configEq, or_assoc]

theorem captureStep_expected {sender : Sender} {seq : UInt32} {state : CaptureState}
    {payload : Bytes} (expected : sender.Expects seq state) (long : 6 ≤ payload.length) :
    (payloadConfig payload = none ∧
      captureStep state (some (sender.packet seq payload)) = none) ∨
    ∃ config after, payloadConfig payload = some config ∧
      captureStep state (some (sender.packet seq payload)) = some after ∧
      state.tls.Takes sender.key ⟨config.ciphers ++ config.ciphers,
        config.keyshareGroups ++ config.keyshareGroups⟩ after.tls ∧
      sender.Expects (seq + .ofNat payload.length) after := by
  obtain ⟨followed, kept⟩ := captureStep_follows (sender.carries seq long) state
  rw [Sender.packetConfig_of_expects expected long] at followed
  cases stepped : captureStep state (some (sender.packet seq payload)) with
  | none =>
    rw [stepped] at followed
    exact .inl ⟨Option.map_eq_none_iff.mp followed.eq_none, rfl⟩
  | some after =>
    rw [stepped] at followed
    obtain ⟨content, contentEq, taken⟩ := followed.exists_takes
    obtain ⟨config, configEq, rfl⟩ := Option.map_eq_some_iff.mp contentEq
    refine .inr ⟨config, after, configEq, rfl, taken, .inr ?_⟩
    have nonempty : payload ≠ [] := by
      rintro rfl
      simp at long
    have pushed := TcpReassembler.push_inSequence state.reassembler nonempty expected
    rw [kept after stepped]
    exact (congrArg (fun pushed => Finmap.lookup sender.flow pushed.2) pushed).trans
      (Finmap.lookup_insert _)

/-- A run over segments in order: each is taken in alone, unless a parser panics on one. -/
theorem run_packets {sender : Sender} {payloads : List Bytes}
    (long : ∀ payload ∈ payloads, 6 ≤ payload.length) {seq : UInt32} {state : CaptureState}
    (expected : sender.Expects seq state) :
    ((∃ payload ∈ payloads, payloadConfig payload = none) ∧
      Runs.run captureStep state (sender.packets seq payloads) = none) ∨
    ∃ after, Runs.run captureStep state (sender.packets seq payloads) = some after ∧
      state.tls.Gains sender.key payloads after.tls := by
  induction payloads generalizing seq state with
  | nil => exact .inr ⟨state, rfl, .nil _ _⟩
  | cons payload payloads ih =>
    have longFirst := long payload (by simp)
    have longRest : ∀ payload ∈ payloads, 6 ≤ payload.length :=
      fun payload membership => long payload (by simp [membership])
    simp only [Sender.packets, Runs.run_cons]
    rcases captureStep_expected expected longFirst with
      ⟨configEq, stepped⟩ | ⟨config, next, configEq, stepped, taken, expected⟩
    · exact .inl ⟨⟨payload, by simp, configEq⟩, by rw [stepped, Option.bind_none]⟩
    · rw [stepped, Option.bind_some]
      rcases ih longRest expected with
        ⟨⟨panics, membership, none⟩, aborted⟩ | ⟨after, result, gains⟩
      · exact .inl ⟨⟨panics, by simp [membership], none⟩, aborted⟩
      · exact .inr ⟨after, result, gains.cons configEq taken⟩

/-! ## A hello that is cut -/

structure TlsStore.Holds (store : TlsStore) (key : String) (hello : Wire.ClientHello) : Prop where
  ciphers : ∀ cs ∈ hello.cipherSuites, cs ∈ valuesAt store.tlsCiphers key
  groups : ∀ group ∈ hello.groups, group ∈ valuesAt store.keyshareGroups key

/-- The store and the segments, each read by itself, already hold what the hello offers. -/
structure HeldBySegments (store : TlsStore) (key : String) (segments : List Bytes)
    (hello : Wire.ClientHello) : Prop where
  complete : ∀ segment ∈ segments, payloadConfig segment ≠ none
  ciphers : ∀ cs ∈ hello.cipherSuites, cs ∈ valuesAt store.tlsCiphers key ∨
    ∃ segment ∈ segments, ∃ config, payloadConfig segment = some config ∧ cs ∈ config.ciphers
  groups : ∀ group ∈ hello.groups, group ∈ valuesAt store.keyshareGroups key ∨
    ∃ segment ∈ segments, ∃ config,
      payloadConfig segment = some config ∧ group ∈ config.keyshareGroups

/-- The first of several segments is a proper initial part. -/
theorem first_segment_cut {first record : Bytes} {later : List Bytes} (several : later ≠ [])
    (long : ∀ segment ∈ later, 6 ≤ segment.length) (cut : (first :: later).flatten = record) :
    first <+: record ∧ first.length < record.length := by
  obtain ⟨second, rest, rfl⟩ := List.exists_cons_of_ne_nil several
  have longSecond := long second (by simp)
  rw [← cut]
  refine ⟨⟨(second :: rest).flatten, rfl⟩, ?_⟩
  simp only [List.flatten_cons, List.length_append]
  omega

/-- After a fresh flow has delivered a hello in several segments, the maps hold what it offers
exactly when they would without its first segment: the later ones do not complete it. -/
theorem cut_hello_held_iff (hello : Wire.ClientHello) {minor : UInt8} (sender : Sender)
    (seq : UInt32) {first : Bytes} {later : List Bytes} (several : later ≠ [])
    (cut : (first :: later).flatten = hello.record minor)
    (long : ∀ segment ∈ first :: later, 6 ≤ segment.length) {state : CaptureState}
    (fresh : state.reassembler.lookup sender.flow = none) :
    (∃ after, Runs.run captureStep state (sender.packets seq (first :: later)) = some after ∧
      after.tls.Holds sender.key hello) ↔ HeldBySegments state.tls sender.key later hello := by
  have longLater : ∀ segment ∈ later, 6 ≤ segment.length :=
    fun segment membership => long segment (by simp [membership])
  obtain ⟨initial, shorter⟩ := first_segment_cut several longLater cut
  have nothing : payloadConfig first = some ⟨[], []⟩ :=
    payloadConfig_cut hello (long first (by simp)) initial shorter
  have expected : sender.Expects seq state := .inl fresh
  rcases run_packets long expected with
    ⟨⟨panics, membership, none⟩, aborted⟩ | ⟨after, result, gains⟩
  · constructor
    · rintro ⟨after, result, -⟩
      rw [aborted] at result
      cases result
    · intro held
      rcases List.mem_cons.mp membership with rfl | membership
      · rw [nothing] at none
        cases none
      · exact absurd none (held.complete panics membership)
  · have ciphers (cs : UInt16) := gains.ciphers cs
    have groups (group : UInt16) := gains.groups group
    simp only [List.mem_cons, exists_eq_or_imp, nothing, Option.some.injEq, exists_eq_left',
      List.not_mem_nil, false_or] at ciphers groups
    constructor
    · rintro ⟨after', result', holds⟩
      cases result.symm.trans result'
      exact ⟨fun segment membership => gains.complete segment (by simp [membership]),
        fun cs offered => (ciphers cs).mp (holds.ciphers cs offered),
        fun group offered => (groups group).mp (holds.groups group offered)⟩
    · intro held
      exact ⟨after, result, fun cs offered => (ciphers cs).mpr (held.ciphers cs offered),
        fun group offered => (groups group).mpr (held.groups group offered)⟩

def localClient : Sender where
  net := .ipv4 ⟨127, 0, 0, 1⟩ ⟨127, 0, 0, 1⟩
  source := .v4 ⟨127, 0, 0, 1⟩
  destination := .v4 ⟨127, 0, 0, 1⟩
  sourcePort := 50000
  destinationPort := 443
  addresses _ := rfl

def cutHello : List Bytes :=
  [(Wire.smallHello.record 1).take 20, (Wire.smallHello.record 1).drop 20]

/-- Delivered in two segments, the hello is lost: neither its cipher suite nor its group is
recorded. -/
theorem cut_hello_lost :
    Wire.smallHello.FitsRecord ∧ cutHello.flatten = Wire.smallHello.record 1 ∧
    (∀ segment ∈ cutHello, 6 ≤ segment.length) ∧
    0x1301 ∈ Wire.smallHello.cipherSuites ∧ 0x001d ∈ Wire.smallHello.groups ∧
    ∃ after, Runs.run captureStep .empty (localClient.packets 1 cutHello) = some after ∧
      0x1301 ∉ valuesAt after.tls.tlsCiphers localClient.key ∧
      0x001d ∉ valuesAt after.tls.keyshareGroups localClient.key := by
  have outcome : (Runs.run captureStep .empty (localClient.packets 1 cutHello)).map
      (fun after => decide (0x1301 ∉ valuesAt after.tls.tlsCiphers localClient.key ∧
        0x001d ∉ valuesAt after.tls.keyshareGroups localClient.key)) = some true := by
    decide +kernel
  obtain ⟨after, result, lost⟩ := Option.map_eq_some_iff.mp outcome
  exact ⟨by decide, by decide, by decide, by decide, by decide, after, result,
    of_decide_eq_true lost⟩

def seenBefore : CaptureState :=
  { CaptureState.empty with tls :=
    ⟨insertAllAt ∅ localClient.key [0x1301], insertAllAt ∅ localClient.key [0x001d], ∅⟩ }

theorem cut_hello_held_before :
    ∃ after, Runs.run captureStep seenBefore (localClient.packets 1 cutHello) = some after ∧
      after.tls.Holds localClient.key Wire.smallHello := by
  have cut : cutHello.flatten = Wire.smallHello.record 1 := by decide
  refine (cut_hello_held_iff Wire.smallHello localClient 1 (by simp) cut (by decide)
    rfl).mpr ⟨by decide +kernel, ?_, ?_⟩
  · intro cs offered
    left
    rw [seenBefore, mem_valuesAt_insertAllAt]
    exact .inr ⟨rfl, offered⟩
  · intro group offered
    left
    rw [seenBefore, mem_valuesAt_insertAllAt]
    exact .inr ⟨rfl, offered⟩

end PqcUtils.Dump

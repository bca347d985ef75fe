import PqcUtils.Dump.Ssh
import PqcUtils.Net.RoundTrip

/-!
# What one message does to the SSH store

The key of an endpoint reads back as that endpoint, so a flow key names its two
endpoints. On a store whose sessions are sound a message has one of three
effects: none, opening a session, or answering one.
-/

namespace PqcUtils.Dump

open Net

/-! ## Endpoint keys -/

theorem parse_key (endpoint : Endpoint) :
    ∃ address, SocketAddr.parse endpoint.key = some address ∧
      address.ip = endpoint.1 ∧ address.port = endpoint.2 := by
  obtain ⟨ip, port⟩ := endpoint
  cases ip with
  | v4 ip =>
    have bare : ':' ∉ (IpAddr.v4 ip).display.toList := by
      rw [toList_display]
      exact colon_notMem_chars_v4 ip
    refine ⟨.v4 ip port, ?_, rfl, rfl⟩
    rw [Endpoint.key, formatSocketAddr, if_neg bare, parse_v4]
  | v6 ip =>
    have colon : ':' ∈ (IpAddr.v6 ip).display.toList := by
      rw [toList_display]
      exact colon_mem_chars_v6 ip
    refine ⟨.v6 ip port 0, ?_, rfl, rfl⟩
    rw [Endpoint.key, formatSocketAddr, if_pos colon, parse_v6_bracketed]

theorem Endpoint.key_injective : Function.Injective Endpoint.key := by
  intro first second same
  obtain ⟨address, read, ip, port⟩ := parse_key first
  obtain ⟨address', read', ip', port'⟩ := parse_key second
  rw [same, read', Option.some.injEq] at read
  subst read
  exact Prod.ext (ip.symm.trans ip') (port.symm.trans port')

def flowOf (source destination : Endpoint) : FlowKey := ⟨source.key, destination.key⟩

@[simp] theorem reverse_flowOf (source destination : Endpoint) :
    (flowOf source destination).reverse = flowOf destination source := rfl

@[simp] theorem reverse_reverse (flow : FlowKey) : flow.reverse.reverse = flow := rfl

@[simp] theorem flowOf_inj {a b c d : Endpoint} : flowOf a b = flowOf c d ↔ a = c ∧ b = d := by
  simp [flowOf, Endpoint.key_injective.eq_iff]

/-! ## Negotiation -/

theorem negotiate_eq_find? (client server : List String) :
    negotiate client server = client.find? (· ∈ server) := by
  induction client with
  | nil => rfl
  | cons alg client ih =>
    rw [negotiate, List.find?_cons]
    by_cases common : alg ∈ server <;> simp [common, ih]

def SshSession.agreed (session : SshSession) : Option NegotiatedAlgorithms :=
  match session.clientKexinit, session.serverKexinit with
  | some client, some server =>
    (negotiate client.kexAlgorithms server.kexAlgorithms).map NegotiatedAlgorithms.mk
  | _, _ => none

/-- A session in the store: opened by its client side, and negotiated as far as possible. -/
structure SshSession.Sound (session : SshSession) : Prop where
  opened : session.clientKexinit.isSome
  negotiated : session.negotiated = session.agreed

theorem SshSession.settle_of_negotiated {session : SshSession}
    (settled : session.negotiated = session.agreed) : session.settle = session := by
  cases session with
  | mk client server negotiated =>
    cases client with
    | none => cases server <;> cases negotiated <;> rfl
    | some client =>
      cases server with
      | none => cases negotiated <;> rfl
      | some server =>
        simp only [SshSession.agreed] at settled
        cases agreement : negotiate client.kexAlgorithms server.kexAlgorithms <;>
          simp_all [SshSession.settle]

theorem SshSession.settle_of_none (session : SshSession) (fresh : session.negotiated = none) :
    session.settle = { session with negotiated := session.agreed } := by
  cases session with
  | mk client server negotiated =>
    simp only at fresh
    subst fresh
    cases client with
    | none => cases server <;> rfl
    | some client =>
      cases server with
      | none => rfl
      | some server =>
        simp only [SshSession.settle, SshSession.agreed]
        cases negotiate client.kexAlgorithms server.kexAlgorithms <;> rfl

/-! ## The three effects -/

def SshStore.Sound (store : SshStore) : Prop :=
  ∀ flow session, store.sessions.lookup flow = some session → session.Sound

theorem SshStore.sound_empty : SshStore.empty.Sound := by
  intro flow session found
  simp [SshStore.empty] at found

def openedBy (kex : KexInit) : SshSession := ⟨some kex, none, none⟩

def SshSession.answeredBy (session : SshSession) (kex : KexInit) : SshSession :=
  let answered := { session with serverKexinit := some kex }
  { answered with negotiated := answered.agreed }

theorem openedBy_sound (kex : KexInit) : (openedBy kex).Sound := ⟨rfl, rfl⟩

theorem SshSession.Sound.answeredBy {session : SshSession} (sound : session.Sound)
    (kex : KexInit) : (session.answeredBy kex).Sound := ⟨sound.opened, rfl⟩

theorem insert_lookup {Key Value : Type} [DecidableEq Key] {map : HashMap Key Value} {key : Key}
    {value : Value} (found : map.lookup key = some value) : Finmap.insert key value map = map := by
  apply Finmap.ext_lookup
  intro other
  rw [HashMap.lookup_insert_eq]
  split
  · next same => rw [same, found]
  · rfl

/-- The effect of a message along `flow` on a store that does not hold the flow. -/
theorem recordKex_open {store : SshStore} {flow : FlowKey} (absent : flow ∉ store.sessions)
    (absentReverse : flow.reverse ∉ store.sessions) (srcIp : String) (kex : KexInit) :
    recordKex store srcIp flow kex =
      ⟨Finmap.insert flow (openedBy kex) store.sessions,
        updateHostCaps store.hostCaps srcIp kex⟩ := by
  rw [← Finmap.lookup_eq_none] at absent absentReverse
  simp only [recordKex, absent, absentReverse]
  rfl

theorem recordKex_repeat {store : SshStore} {flow : FlowKey} {session : SshSession}
    (found : store.sessions.lookup flow = some session) (sound : session.Sound)
    (srcIp : String) (kex : KexInit) : recordKex store srcIp flow kex = store := by
  have present : session.clientKexinit.isNone = false := by
    simpa using sound.opened
  simp [recordKex, found, present, SshSession.settle_of_negotiated sound.negotiated,
    insert_lookup found]

theorem recordKex_answer {store : SshStore} {flow : FlowKey} {session : SshSession}
    (absent : flow ∉ store.sessions) (found : store.sessions.lookup flow.reverse = some session)
    (sound : session.Sound) (unanswered : session.serverKexinit = none)
    (srcIp : String) (kex : KexInit) :
    recordKex store srcIp flow kex =
      ⟨Finmap.insert flow.reverse (session.answeredBy kex) store.sessions,
        updateHostCaps store.hostCaps srcIp kex⟩ := by
  have fresh : session.negotiated = none := by
    rw [sound.negotiated, SshSession.agreed, unanswered]
    cases session.clientKexinit <;> rfl
  have settled := SshSession.settle_of_none { session with serverKexinit := some kex } fresh
  rw [← Finmap.lookup_eq_none] at absent
  simp only [recordKex, absent, found, unanswered]
  simp [settled, SshSession.answeredBy]

theorem recordKex_answered {store : SshStore} {flow : FlowKey} {session : SshSession}
    (absent : flow ∉ store.sessions) (found : store.sessions.lookup flow.reverse = some session)
    (sound : session.Sound) (answered : session.serverKexinit ≠ none)
    (srcIp : String) (kex : KexInit) : recordKex store srcIp flow kex = store := by
  have present : session.serverKexinit.isNone = false := by
    simpa [Option.isSome_iff_ne_none] using answered
  rw [← Finmap.lookup_eq_none] at absent
  simp [recordKex, absent, found, present, SshSession.settle_of_negotiated sound.negotiated,
    insert_lookup found]

/-- Everything a message can do to a sound store. -/
theorem recordKex_cases {store : SshStore} (sound : store.Sound) (srcIp : String) (flow : FlowKey)
    (kex : KexInit) :
    ((flow ∈ store.sessions ∨ flow.reverse ∈ store.sessions) ∧
      (∀ session, store.sessions.lookup flow.reverse = some session → flow ∉ store.sessions →
        session.serverKexinit ≠ none) ∧
      recordKex store srcIp flow kex = store) ∨
    (flow ∉ store.sessions ∧ flow.reverse ∉ store.sessions ∧
      recordKex store srcIp flow kex =
        ⟨Finmap.insert flow (openedBy kex) store.sessions,
          updateHostCaps store.hostCaps srcIp kex⟩) ∨
    (∃ session, flow ∉ store.sessions ∧ store.sessions.lookup flow.reverse = some session ∧
      session.serverKexinit = none ∧
      recordKex store srcIp flow kex =
        ⟨Finmap.insert flow.reverse (session.answeredBy kex) store.sessions,
          updateHostCaps store.hostCaps srcIp kex⟩) := by
  by_cases forward : flow ∈ store.sessions
  · obtain ⟨session, found⟩ := Finmap.mem_iff.mp forward
    exact .inl ⟨.inl forward, fun _ _ absent => absurd forward absent,
      recordKex_repeat found (sound _ _ found) srcIp kex⟩
  by_cases backward : flow.reverse ∈ store.sessions
  · obtain ⟨session, found⟩ := Finmap.mem_iff.mp backward
    by_cases unanswered : session.serverKexinit = none
    · exact .inr (.inr ⟨session, forward, found, unanswered,
        recordKex_answer forward found (sound _ _ found) unanswered srcIp kex⟩)
    · refine .inl ⟨.inr backward, ?_,
        recordKex_answered forward found (sound _ _ found) unanswered srcIp kex⟩
      intro other found' _
      rw [found, Option.some.injEq] at found'
      rwa [← found']
  · exact .inr (.inl ⟨forward, backward, recordKex_open forward backward srcIp kex⟩)

theorem recordKex_sound {store : SshStore} (sound : store.Sound) (srcIp : String) (flow : FlowKey)
    (kex : KexInit) : (recordKex store srcIp flow kex).Sound := by
  rcases recordKex_cases sound srcIp flow kex with
    ⟨-, -, same⟩ | ⟨-, -, opened⟩ | ⟨session, -, found, -, answered⟩
  · rwa [same]
  · rw [opened]
    intro key session' found
    rcases HashMap.lookup_insert_eq_some_iff.mp found with ⟨-, rfl⟩ | ⟨-, there⟩
    · exact openedBy_sound kex
    · exact sound key session' there
  · rw [answered]
    intro key session' found'
    rcases HashMap.lookup_insert_eq_some_iff.mp found' with ⟨-, rfl⟩ | ⟨-, there⟩
    · exact (sound _ _ found).answeredBy kex
    · exact sound key session' there

end PqcUtils.Dump

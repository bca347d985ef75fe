import PqcUtils.Dump.Ssh.Invariant

/-!
# Who is heard

A session takes one message from each side, the first one it sees. So what the
sessions record of a host are the first messages of all directions it sent in,
and a host that sent one message is described by it alone.
-/

namespace PqcUtils.Dump

open Net

/-! ## First messages -/

def messageAlong (source destination : Endpoint) (input : SshInput) : Option KexInit :=
  match parseSshKexinit input.2 with
  | .ok kex => if input.1.endpoints = some (source, destination) then some kex else none
  | _ => none

/-- The list of the first message from this endpoint to that. -/
def firstMessage (inputs : List SshInput) (source destination : Endpoint) : Option KexInit :=
  inputs.findSome? (messageAlong source destination)

theorem messageAlong_eq_some_iff {source destination : Endpoint} {input : SshInput}
    {kex : KexInit} :
    messageAlong source destination input = some kex ↔ Accepted input source destination kex := by
  unfold messageAlong Accepted
  cases parseSshKexinit input.2 with
  | ok other => by_cases sent : input.1.endpoints = some (source, destination) <;> simp [sent]
  | err error => simp
  | panic => simp

theorem messageAlong_of_accepted {input : SshInput} {source destination : Endpoint}
    {kex : KexInit} (accepted : Accepted input source destination kex) :
    messageAlong source destination input = some kex :=
  messageAlong_eq_some_iff.mpr accepted

theorem messageAlong_of_other {input : SshInput} {source destination a b : Endpoint}
    {kex : KexInit} (accepted : Accepted input source destination kex)
    (other : ¬(a = source ∧ b = destination)) : messageAlong a b input = none := by
  apply Option.eq_none_iff_forall_ne_some.mpr
  intro kex' carried
  obtain ⟨rfl, rfl, -⟩ := (messageAlong_eq_some_iff.mp carried).unique accepted
  exact other ⟨rfl, rfl⟩

theorem firstMessage_append (past : List SshInput) (input : SshInput) (a b : Endpoint) :
    firstMessage (past ++ [input]) a b = (firstMessage past a b).or (messageAlong a b input) := by
  simp [firstMessage, List.findSome?_append]

theorem firstMessage_append_of_other {past : List SshInput} {input : SshInput}
    {source destination a b : Endpoint} {kex : KexInit}
    (accepted : Accepted input source destination kex)
    (other : ¬(a = source ∧ b = destination)) :
    firstMessage (past ++ [input]) a b = firstMessage past a b := by
  rw [firstMessage_append, messageAlong_of_other accepted other, Option.or_none]

theorem firstMessage_isSome_iff {inputs : List SshInput} {a b : Endpoint} :
    (firstMessage inputs a b).isSome ↔ ∃ input ∈ inputs, ∃ kex, Accepted input a b kex := by
  rw [firstMessage, List.findSome?_isSome_iff]
  simp only [Option.isSome_iff_exists, messageAlong_eq_some_iff]

theorem exists_accepted_of_firstMessage {inputs : List SshInput} {a b : Endpoint} {kex : KexInit}
    (first : firstMessage inputs a b = some kex) : ∃ input ∈ inputs, Accepted input a b kex := by
  obtain ⟨input, membership, carried⟩ := List.exists_of_findSome?_eq_some first
  exact ⟨input, membership, messageAlong_eq_some_iff.mp carried⟩

/-! ## What the sessions remember -/

/-- Every session holds the first messages of its two directions. A session of one endpoint with
itself has only one direction. -/
structure Remembers (past : List SshInput) (store : SshStore) : Prop where
  consistent : Consistent past store
  client : ∀ a b session, store.sessions.lookup (flowOf a b) = some session →
    session.clientKexinit = firstMessage past a b
  server : ∀ a b session, store.sessions.lookup (flowOf a b) = some session → a ≠ b →
    session.serverKexinit = firstMessage past b a
  alone : ∀ a session, store.sessions.lookup (flowOf a a) = some session →
    session.serverKexinit = none

theorem remembers_empty : Remembers [] .empty where
  consistent := consistent_empty
  client a b session found := by simp [SshStore.empty] at found
  server a b session found := by simp [SshStore.empty] at found
  alone a session found := by simp [SshStore.empty] at found

theorem Remembers.firstMessage_of_absent {past : List SshInput} {store : SshStore}
    (remembers : Remembers past store) {a b : Endpoint} (absent : flowOf a b ∉ store.sessions)
    (absentReverse : flowOf b a ∉ store.sessions) : firstMessage past a b = none := by
  rw [← Option.not_isSome_iff_eq_none, firstMessage_isSome_iff]
  rintro ⟨input, membership, kex, accepted⟩
  have between : AcceptedBetween past a b := ⟨input, membership, kex, .inl accepted⟩
  rcases remembers.consistent.covered a b between with present | present
  · exact absent present
  · exact absentReverse present

theorem Remembers.firstMessage_isSome {past : List SshInput} {store : SshStore}
    (remembers : Remembers past store) {a b : Endpoint}
    (holds : flowOf a b ∈ store.sessions ∨ flowOf b a ∈ store.sessions)
    (answered : ∀ session, store.sessions.lookup (flowOf b a) = some session →
      flowOf a b ∉ store.sessions → session.serverKexinit ≠ none) :
    (firstMessage past a b).isSome := by
  by_cases present : flowOf a b ∈ store.sessions
  · obtain ⟨session, found⟩ := Finmap.mem_iff.mp present
    rw [← remembers.client a b session found]
    exact (remembers.consistent.sound _ _ found).opened
  · obtain ⟨session, found⟩ := Finmap.mem_iff.mp (holds.resolve_left present)
    have distinct : b ≠ a := by
      rintro rfl
      exact present (Finmap.mem_of_lookup_eq_some found)
    rw [← remembers.server b a session found distinct, Option.isSome_iff_ne_none]
    exact answered session found present

theorem Remembers.keep {past : List SshInput} {store : SshStore}
    (remembers : Remembers past store) {input : SshInput}
    (consistent : Consistent (past ++ [input]) store)
    (same : ∀ a b, firstMessage (past ++ [input]) a b = firstMessage past a b) :
    Remembers (past ++ [input]) store := by
  refine ⟨consistent, ?_, ?_, remembers.alone⟩
  · intro a b session found
    rw [same, remembers.client a b session found]
  · intro a b session found distinct
    rw [same, remembers.server a b session found distinct]

section Record

variable {past : List SshInput} {store : SshStore} {input : SshInput}
  {source destination : Endpoint} {kex : KexInit}

theorem lookup_insert_flowOf {sessions : HashMap FlowKey SshSession} {added session : SshSession}
    {a b : Endpoint}
    (found : (Finmap.insert (flowOf source destination) added sessions).lookup (flowOf a b) =
      some session) :
    (a = source ∧ b = destination) ∧ added = session ∨
      ¬(a = source ∧ b = destination) ∧ sessions.lookup (flowOf a b) = some session := by
  rwa [HashMap.lookup_insert_eq_some_iff, Ne, flowOf_inj] at found

/-- The first message between two endpoints opens their session. -/
theorem Remembers.opens (remembers : Remembers past store)
    (accepted : Accepted input source destination kex)
    (absent : flowOf source destination ∉ store.sessions)
    (absentReverse : flowOf destination source ∉ store.sessions)
    {hostCaps : HashMap String HostCapabilities}
    (consistent : Consistent (past ++ [input])
      ⟨Finmap.insert (flowOf source destination) (openedBy kex) store.sessions, hostCaps⟩) :
    Remembers (past ++ [input])
      ⟨Finmap.insert (flowOf source destination) (openedBy kex) store.sessions, hostCaps⟩ := by
  have unheard := remembers.firstMessage_of_absent absent absentReverse
  have unheardReverse := remembers.firstMessage_of_absent absentReverse absent
  refine ⟨consistent, ?_, ?_, ?_⟩
  · intro a b session found
    rcases lookup_insert_flowOf found with ⟨⟨rfl, rfl⟩, rfl⟩ | ⟨other, there⟩
    · rw [firstMessage_append, unheard, messageAlong_of_accepted accepted]
      rfl
    · rw [firstMessage_append_of_other accepted other, remembers.client a b session there]
  · intro a b session found distinct
    rcases lookup_insert_flowOf found with ⟨⟨rfl, rfl⟩, rfl⟩ | ⟨-, there⟩
    · rw [firstMessage_append_of_other accepted fun both => distinct both.2, unheardReverse]
      rfl
    · have other : ¬(b = source ∧ a = destination) := by
        rintro ⟨rfl, rfl⟩
        exact absentReverse (Finmap.mem_of_lookup_eq_some there)
      rw [firstMessage_append_of_other accepted other, remembers.server a b session there distinct]
  · intro a session found
    rcases lookup_insert_flowOf found with ⟨-, rfl⟩ | ⟨-, there⟩
    · rfl
    · exact remembers.alone a session there

/-- The first message of the other side is put next to the one that opened the session. -/
theorem Remembers.answers (remembers : Remembers past store)
    (accepted : Accepted input source destination kex)
    (absent : flowOf source destination ∉ store.sessions) {opened : SshSession}
    (there : store.sessions.lookup (flowOf destination source) = some opened)
    (unanswered : opened.serverKexinit = none) {hostCaps : HashMap String HostCapabilities}
    (consistent : Consistent (past ++ [input])
      ⟨Finmap.insert (flowOf destination source) (opened.answeredBy kex) store.sessions,
        hostCaps⟩) :
    Remembers (past ++ [input])
      ⟨Finmap.insert (flowOf destination source) (opened.answeredBy kex) store.sessions,
        hostCaps⟩ := by
  have distinct : destination ≠ source := by
    rintro rfl
    exact absent (Finmap.mem_of_lookup_eq_some there)
  have unheard : firstMessage past source destination = none := by
    rw [← remembers.server destination source opened there distinct, unanswered]
  refine ⟨consistent, ?_, ?_, ?_⟩
  · intro a b session found
    rcases lookup_insert_flowOf found with ⟨⟨rfl, rfl⟩, rfl⟩ | ⟨-, before⟩
    · rw [firstMessage_append_of_other accepted fun both => distinct both.1]
      exact remembers.client _ _ opened there
    · have other : ¬(a = source ∧ b = destination) := by
        rintro ⟨rfl, rfl⟩
        exact absent (Finmap.mem_of_lookup_eq_some before)
      rw [firstMessage_append_of_other accepted other]
      exact remembers.client a b session before
  · intro a b session found differ
    rcases lookup_insert_flowOf found with ⟨⟨rfl, rfl⟩, rfl⟩ | ⟨other, before⟩
    · rw [firstMessage_append, unheard, messageAlong_of_accepted accepted]
      rfl
    · have elsewhere : ¬(b = source ∧ a = destination) := fun both => other both.symm
      rw [firstMessage_append_of_other accepted elsewhere,
        remembers.server a b session before differ]
  · intro a session found
    rcases lookup_insert_flowOf found with ⟨⟨rfl, same⟩, -⟩ | ⟨-, before⟩
    · exact absurd same distinct
    · exact remembers.alone a session before

theorem Remembers.record (remembers : Remembers past store)
    (accepted : Accepted input source destination kex) :
    Remembers (past ++ [input])
      (recordKex store source.1.display (flowOf source destination) kex) := by
  have consistent := remembers.consistent.record accepted
  rcases recordKex_cases remembers.consistent.sound source.1.display
      (flowOf source destination) kex with
    ⟨holds, answered, same⟩ | ⟨absent, absentReverse, opened⟩ |
    ⟨session, absent, found, unanswered, answered⟩
  · rw [same] at consistent ⊢
    apply remembers.keep consistent
    intro a b
    by_cases direction : a = source ∧ b = destination
    · obtain ⟨rfl, rfl⟩ := direction
      obtain ⟨first, heard⟩ :=
        Option.isSome_iff_exists.mp (remembers.firstMessage_isSome holds answered)
      rw [firstMessage_append, heard, Option.some_or]
    · exact firstMessage_append_of_other accepted direction
  · rw [opened] at consistent ⊢
    exact remembers.opens accepted absent absentReverse consistent
  · rw [answered] at consistent ⊢
    exact remembers.answers accepted absent found unanswered consistent

theorem Remembers.step {after : SshStore} (remembers : Remembers past store)
    (stepped : sshStep store input = some after) : Remembers (past ++ [input]) after := by
  have consistent := remembers.consistent.step stepped
  rcases sshStep_cases store input with
    ⟨source, destination, kex, accepted, recorded⟩ | ⟨rejected, same⟩
  · rw [recorded, Option.some.injEq] at stepped
    exact stepped ▸ remembers.record accepted
  · rw [same, Option.some.injEq] at stepped
    subst stepped
    apply remembers.keep consistent
    intro a b
    have nothing : messageAlong a b input = none :=
      Option.eq_none_iff_forall_ne_some.mpr fun kex carried =>
        rejected a b kex (messageAlong_eq_some_iff.mp carried)
    rw [firstMessage_append, nothing, Option.or_none]

end Record

theorem remembers_of_run {inputs : List SshInput} {store : SshStore}
    (result : runSsh inputs = some store) : Remembers inputs store :=
  Runs.history_of_run Remembers (fun _ _ _ _ remembers stepped => remembers.step stepped) []
    remembers_empty result

/-! ## What a host has offered -/

/-- The offers of a host are its first messages. -/
theorem Remembers.offer_iff {inputs : List SshInput} {store : SshStore}
    (remembers : Remembers inputs store) {host : String} {kex : KexInit} :
    Offer store.sessions host kex ↔
      ∃ a b, a.1.display = host ∧ firstMessage inputs a b = some kex := by
  constructor
  · rintro ⟨flow, session, found, sent⟩
    obtain ⟨a, b, rfl, -⟩ :=
      remembers.consistent.named flow (Finmap.mem_of_lookup_eq_some found)
    rcases sent with ⟨sourceIp, list⟩ | ⟨destinationIp, list⟩
    · rw [FlowKey.sourceIp, flowOf, printedIp_key, Option.some.injEq] at sourceIp
      exact ⟨a, b, sourceIp, by rw [← remembers.client a b session found, list]⟩
    · rw [FlowKey.destinationIp, flowOf, printedIp_key, Option.some.injEq] at destinationIp
      have distinct : a ≠ b := by
        rintro rfl
        simp [remembers.alone a session found] at list
      exact ⟨b, a, destinationIp, by rw [← remembers.server a b session found distinct, list]⟩
  · rintro ⟨a, b, rfl, first⟩
    obtain ⟨input, membership, other, accepted⟩ :=
      firstMessage_isSome_iff.mp (Option.isSome_of_eq_some first)
    have between : AcceptedBetween inputs a b := ⟨input, membership, other, .inl accepted⟩
    by_cases present : flowOf a b ∈ store.sessions
    · obtain ⟨session, found⟩ := Finmap.mem_iff.mp present
      refine ⟨flowOf a b, session, found, .inl ⟨printedIp_key a, ?_⟩⟩
      rw [remembers.client a b session found, first]
    · have presentReverse := (remembers.consistent.covered a b between).resolve_left present
      obtain ⟨session, found⟩ := Finmap.mem_iff.mp presentReverse
      have distinct : b ≠ a := by
        rintro rfl
        exact present presentReverse
      refine ⟨flowOf b a, session, found, .inr ⟨printedIp_key a, ?_⟩⟩
      rw [remembers.server b a session found distinct, first]

theorem Remembers.exists_accepted {inputs : List SshInput} {store : SshStore}
    (remembers : Remembers inputs store) {host : String} {kex : KexInit}
    (offered : Offer store.sessions host kex) :
    ∃ input ∈ inputs, ∃ a b, Accepted input a b kex ∧ a.1.display = host := by
  obtain ⟨a, b, same, first⟩ := remembers.offer_iff.mp offered
  obtain ⟨input, membership, accepted⟩ := exists_accepted_of_firstMessage first
  exact ⟨input, membership, a, b, accepted, same⟩

theorem Remembers.exists_offer {inputs : List SshInput} {store : SshStore}
    (remembers : Remembers inputs store) {input : SshInput} (membership : input ∈ inputs)
    {a b : Endpoint} {kex : KexInit} (accepted : Accepted input a b kex) :
    ∃ other, Offer store.sessions a.1.display other := by
  obtain ⟨other, first⟩ := Option.isSome_iff_exists.mp
    (firstMessage_isSome_iff.mpr ⟨input, membership, kex, accepted⟩)
  exact ⟨other, remembers.offer_iff.mpr ⟨a, b, rfl, first⟩⟩

structure OnlyMessage (inputs : List SshInput) (host : String) (kex : KexInit) : Prop where
  sent : ∃ input ∈ inputs, ∃ a b, Accepted input a b kex ∧ a.1.display = host
  only : ∀ input ∈ inputs, ∀ a b other, Accepted input a b other → a.1.display = host → other = kex

theorem hostCaps_of_onlyMessage {inputs : List SshInput} {store : SshStore}
    (result : runSsh inputs = some store) {host : String} {kex : KexInit}
    (only : OnlyMessage inputs host kex) :
    ∃ caps, store.hostCaps.lookup host = some caps ∧
      ∀ alg, alg ∈ caps.supportedKex ↔ alg ∈ kex.kexAlgorithms := by
  have remembers := remembers_of_run result
  have offers (other : KexInit) : Offer store.sessions host other ↔ other = kex := by
    have unique (other : KexInit) (offered : Offer store.sessions host other) : other = kex := by
      obtain ⟨input, membership, a, b, accepted, same⟩ := remembers.exists_accepted offered
      exact only.only input membership a b other accepted same
    refine ⟨unique other, ?_⟩
    rintro rfl
    obtain ⟨input, membership, a, b, accepted, rfl⟩ := only.sent
    obtain ⟨other', offered⟩ := remembers.exists_offer membership accepted
    rwa [← unique other' offered]
  have capable := remembers.consistent.capable
  obtain ⟨caps, found⟩ := Finmap.mem_iff.mp ((capable.hosts host).mpr ⟨kex, (offers kex).mpr rfl⟩)
  refine ⟨caps, found, fun alg => ?_⟩
  have names := Set.ext_iff.mp (capable.names host caps found) alg
  simpa [offers] using names

end PqcUtils.Dump

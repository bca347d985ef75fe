import PqcUtils.Dump.Ssh.Hosts

/-!
# Who speaks first

A session is named after the endpoint that is heard first, its client. So the
sessions of a store can be told from the messages alone, and so can what they
have agreed on.
-/

namespace PqcUtils.Dump

open Net

/-! ## The first message between two endpoints -/

/-- The first message between the two endpoints is one from the client. -/
def Opens (inputs : List SshInput) (client server : Endpoint) : Prop :=
  ∃ earlier input later kex, inputs = earlier ++ input :: later ∧
    Accepted input client server kex ∧ ¬AcceptedBetween earlier client server

theorem acceptedBetween_comm {inputs : List SshInput} {a b : Endpoint} :
    AcceptedBetween inputs a b ↔ AcceptedBetween inputs b a := by
  simp only [AcceptedBetween, or_comm]

theorem not_opens_nil (client server : Endpoint) : ¬Opens [] client server := by
  rintro ⟨earlier, input, later, kex, nothing, -⟩
  simp at nothing

theorem opens_append {past : List SshInput} {input : SshInput} {client server : Endpoint} :
    Opens (past ++ [input]) client server ↔ Opens past client server ∨
      ¬AcceptedBetween past client server ∧ ∃ kex, Accepted input client server kex := by
  constructor
  · rintro ⟨earlier, first, later, kex, split, accepted, unheard⟩
    rcases later.eq_nil_or_concat with rfl | ⟨between, last, rfl⟩
    · obtain ⟨rfl, same⟩ := List.append_inj' split rfl
      cases same
      exact .inr ⟨unheard, kex, accepted⟩
    · rw [List.concat_eq_append, ← List.cons_append, ← List.append_assoc] at split
      obtain ⟨rfl, -⟩ := List.append_inj' split rfl
      exact .inl ⟨earlier, first, between, kex, rfl, accepted, unheard⟩
  · rintro (⟨earlier, first, later, kex, rfl, accepted, unheard⟩ | ⟨unheard, kex, accepted⟩)
    · exact ⟨earlier, first, later ++ [input], kex, by simp, accepted, unheard⟩
    · exact ⟨past, input, [], kex, rfl, accepted, unheard⟩

/-! ## The sessions of a store -/

/-- The sessions are named after who opened them. -/
structure Opened (past : List SshInput) (store : SshStore) : Prop where
  consistent : Consistent past store
  opens : ∀ client server, flowOf client server ∈ store.sessions ↔ Opens past client server

theorem opened_empty : Opened [] .empty where
  consistent := consistent_empty
  opens client server := iff_of_false Finmap.notMem_empty (not_opens_nil client server)

section Step

variable {past : List SshInput} {before after : SshStore} {input : SshInput}

theorem Consistent.heard (consistent : Consistent past before) {a b : Endpoint}
    (present : flowOf a b ∈ before.sessions) : AcceptedBetween past a b := by
  obtain ⟨c, d, same, between⟩ := consistent.named _ present
  obtain ⟨rfl, rfl⟩ := flowOf_inj.mp same
  exact between

theorem Opened.keep (opened : Opened past before)
    (heard : ∀ a b kex, Accepted input a b kex → AcceptedBetween past a b)
    (same : ∀ flow, flow ∈ after.sessions ↔ flow ∈ before.sessions) (client server : Endpoint) :
    flowOf client server ∈ after.sessions ↔ Opens (past ++ [input]) client server := by
  rw [same, opened.opens, opens_append, iff_self_or]
  rintro ⟨unheard, kex, accepted⟩
  exact absurd (heard _ _ kex accepted) unheard

theorem Opened.step (opened : Opened past before) (stepped : sshStep before input = some after) :
    Opened (past ++ [input]) after := by
  refine ⟨opened.consistent.step stepped, ?_⟩
  rcases sshStep_cases before input with
    ⟨source, destination, kex, accepted, recorded⟩ | ⟨rejected, same⟩
  · have only {a b : Endpoint} {other : KexInit} (also : Accepted input a b other) :
        a = source ∧ b = destination := by
      obtain ⟨rfl, rfl, -⟩ := also.unique accepted
      exact ⟨rfl, rfl⟩
    rw [recorded, Option.some.injEq] at stepped
    subst stepped
    rcases recordKex_cases opened.consistent.sound source.1.display (flowOf source destination)
      kex with ⟨holds, -, same⟩ | ⟨absent, absentReverse, opens⟩ |
      ⟨session, absent, found, unanswered, answered⟩
    · apply opened.keep _ (by simp [same])
      intro a b other also
      obtain ⟨rfl, rfl⟩ := only also
      rcases holds with present | present
      · exact opened.consistent.heard present
      · exact acceptedBetween_comm.mp (opened.consistent.heard present)
    · intro client server
      have unheard : ¬AcceptedBetween past source destination := fun between =>
        (opened.consistent.covered _ _ between).elim absent absentReverse
      rw [opens, Finmap.mem_insert, flowOf_inj, opened.opens, opens_append, or_comm]
      apply or_congr_right
      constructor
      · rintro ⟨rfl, rfl⟩
        exact ⟨unheard, kex, accepted⟩
      · rintro ⟨-, other, also⟩
        exact only also
    · have present := Finmap.mem_of_lookup_eq_some found
      apply opened.keep
      · intro a b other also
        obtain ⟨rfl, rfl⟩ := only also
        exact acceptedBetween_comm.mp (opened.consistent.heard present)
      · intro flow
        rw [answered, Finmap.mem_insert, or_iff_right_iff_imp]
        rintro rfl
        exact present
  · rw [same, Option.some.injEq] at stepped
    subst stepped
    exact opened.keep (fun a b kex accepted => absurd accepted (rejected a b kex))
      fun _ => Iff.rfl

end Step

/-- There is a session for a client and a server exactly when the client has spoken first. -/
theorem opened_of_run {inputs : List SshInput} {store : SshStore}
    (result : runSsh inputs = some store) : Opened inputs store :=
  Runs.history_of_run Opened (fun _ _ _ _ opened stepped => opened.step stepped) [] opened_empty
    result

/-! ## What a session has agreed on -/

/-- The client has spoken first, the server has answered, and this is the first algorithm of the
client that the server has too. -/
structure Agreed (inputs : List SshInput) (client server : Endpoint) (kex : String) : Prop where
  opens : Opens inputs client server
  distinct : client ≠ server
  first : ∃ offer answer, firstMessage inputs client server = some offer ∧
    firstMessage inputs server client = some answer ∧
    offer.kexAlgorithms.find? (· ∈ answer.kexAlgorithms) = some kex

theorem agreed_iff {inputs : List SshInput} {store : SshStore}
    (result : runSsh inputs = some store) (client server : Endpoint) (kex : String) :
    Agreed inputs client server kex ↔
      ∃ session, store.sessions.lookup (flowOf client server) = some session ∧
        session.negotiated = some ⟨kex⟩ := by
  have remembers := remembers_of_run result
  have opened := opened_of_run result
  have negotiated {session : SshSession}
      (found : store.sessions.lookup (flowOf client server) = some session) :
      session.negotiated = some ⟨kex⟩ ↔ client ≠ server ∧ ∃ offer answer,
        firstMessage inputs client server = some offer ∧
        firstMessage inputs server client = some answer ∧
        offer.kexAlgorithms.find? (· ∈ answer.kexAlgorithms) = some kex := by
    rw [(remembers.consistent.sound _ _ found).negotiated_iff, remembers.client _ _ _ found]
    by_cases same : client = server
    · subst same
      simp [remembers.alone client session found]
    · rw [remembers.server _ _ _ found same]
      simp [same]
  constructor
  · rintro ⟨opens, distinct, first⟩
    obtain ⟨session, found⟩ := Finmap.mem_iff.mp ((opened.opens _ _).mpr opens)
    exact ⟨session, found, (negotiated found).mpr ⟨distinct, first⟩⟩
  · rintro ⟨session, found, agreed⟩
    obtain ⟨distinct, first⟩ := (negotiated found).mp agreed
    exact ⟨(opened.opens _ _).mp (Finmap.mem_of_lookup_eq_some found), distinct, first⟩

end PqcUtils.Dump

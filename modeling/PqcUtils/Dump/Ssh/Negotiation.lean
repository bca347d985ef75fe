import PqcUtils.Dump.Ssh.Invariant

/-!
# Which side speaks first

The store takes the side it sees first for the client. Two messages that open
and answer a connection are followed in both orders; the outcomes are compared
with what the two sides themselves would agree on.
-/

namespace PqcUtils.Dump

open Net Wire

/-- The session that a message from `a` to `b` belongs to. -/
def SshStore.connection (store : SshStore) (a b : Endpoint) : Option SshSession :=
  (store.sessions.lookup (flowOf a b)).or (store.sessions.lookup (flowOf b a))

def firstCommon (client server : KexInit) : Option NegotiatedAlgorithms :=
  (client.kexAlgorithms.find? (· ∈ server.kexAlgorithms)).map NegotiatedAlgorithms.mk

theorem SshStore.connection_comm {store : SshStore} {a b : Endpoint}
    (single : flowOf a b ∈ store.sessions → flowOf b a ∈ store.sessions → a = b) :
    store.connection a b = store.connection b a := by
  unfold connection
  cases forward : store.sessions.lookup (flowOf a b) with
  | none => cases store.sessions.lookup (flowOf b a) <;> rfl
  | some session =>
    cases backward : store.sessions.lookup (flowOf b a) with
    | none => rfl
    | some session' =>
      have same := single (Finmap.mem_of_lookup_eq_some forward)
        (Finmap.mem_of_lookup_eq_some backward)
      subst same
      rw [forward] at backward
      simpa using backward

theorem sshStep_of_accepted {input : SshInput} {a b : Endpoint} {kex : KexInit}
    (accepted : Accepted input a b kex) (store : SshStore) :
    sshStep store input = some (recordKex store a.1.display (flowOf a b) kex) := by
  rcases sshStep_cases store input with
    ⟨source, destination, kex', accepted', stepped⟩ | ⟨rejected, -⟩
  · obtain ⟨rfl, rfl, rfl⟩ := accepted.unique accepted'
    exact stepped
  · exact absurd accepted (rejected a b kex)

/-- A message and the other side's answer: the sender of the first one counts as the client. -/
theorem run_answer {store : SshStore} {first second : SshInput} {a b : Endpoint}
    {kex kex' : KexInit} (opening : Accepted first a b kex) (answer : Accepted second b a kex')
    (distinct : a ≠ b) (absent : flowOf a b ∉ store.sessions)
    (absentReverse : flowOf b a ∉ store.sessions) :
    ∃ store', Runs.run sshStep store [first, second] = some store' ∧
      flowOf b a ∉ store'.sessions ∧
      ∃ session, store'.connection a b = some session ∧
        session.negotiated = firstCommon kex kex' := by
  let opened := recordKex store a.1.display (flowOf a b) kex
  have openedEq : opened = _ := recordKex_open absent (by simpa using absentReverse) _ _
  have found : opened.sessions.lookup (flowOf b a).reverse = some (openedBy kex) := by
    rw [openedEq, reverse_flowOf, Finmap.lookup_insert]
  have stillAbsent : flowOf b a ∉ opened.sessions := by
    rw [openedEq, Finmap.mem_insert, flowOf_inj]
    rintro (⟨same, -⟩ | present)
    · exact distinct same.symm
    · exact absentReverse present
  have answered := recordKex_answer stillAbsent found (openedBy_sound kex) rfl b.1.display kex'
  refine ⟨recordKex opened b.1.display (flowOf b a) kex', ?_, ?_,
    (openedBy kex).answeredBy kex', ?_, ?_⟩
  · rw [Runs.run_cons, sshStep_of_accepted opening, Option.bind_some, Runs.run_cons,
      sshStep_of_accepted answer]
    rfl
  · rw [answered, Finmap.mem_insert, reverse_flowOf, flowOf_inj]
    rintro (⟨same, -⟩ | present)
    · exact distinct same.symm
    · exact stillAbsent present
  · rw [answered, reverse_flowOf, SshStore.connection, Finmap.lookup_insert]
    rfl
  · simp [SshSession.answeredBy, SshSession.agreed, openedBy, firstCommon, negotiate_eq_find?]

/-- An endpoint that talks to itself is never answered: its second message repeats the first. -/
theorem run_self {store : SshStore} {first second : SshInput} {a : Endpoint}
    {kex kex' : KexInit} (opening : Accepted first a a kex) (again : Accepted second a a kex')
    (absent : flowOf a a ∉ store.sessions) :
    ∃ store', Runs.run sshStep store [first, second] = some store' ∧
      store'.connection a a = some (openedBy kex) := by
  let opened := recordKex store a.1.display (flowOf a a) kex
  have openedEq : opened = _ := recordKex_open absent (by simpa using absent) _ _
  have found : opened.sessions.lookup (flowOf a a) = some (openedBy kex) := by
    rw [openedEq, Finmap.lookup_insert]
  refine ⟨opened, ?_, ?_⟩
  · rw [Runs.run_cons, sshStep_of_accepted opening, Option.bind_some, Runs.run_cons,
      sshStep_of_accepted again, recordKex_repeat found (openedBy_sound kex)]
    rfl
  · rw [SshStore.connection, found]
    rfl

def Negotiates (store : SshStore) (inputs : List SshInput) (a b : Endpoint)
    (agreed : Option NegotiatedAlgorithms) : Prop :=
  ∃ store', Runs.run sshStep store inputs = some store' ∧
    ∃ session, store'.connection a b = some session ∧ session.negotiated = agreed

theorem Negotiates.unique {store : SshStore} {inputs : List SshInput} {a b : Endpoint}
    {agreed agreed' : Option NegotiatedAlgorithms} (first : Negotiates store inputs a b agreed)
    (second : Negotiates store inputs a b agreed') : agreed = agreed' := by
  obtain ⟨store', result, session, found, rfl⟩ := first
  obtain ⟨store'', result', session', found', rfl⟩ := second
  cases result.symm.trans result'
  cases found.symm.trans found'
  rfl

theorem negotiates_client_first {store : SshStore} {fromClient fromServer : SshInput}
    {a b : Endpoint} {client server : KexInit} (hello : Accepted fromClient a b client)
    (answer : Accepted fromServer b a server) (distinct : a ≠ b)
    (absent : flowOf a b ∉ store.sessions) (absentReverse : flowOf b a ∉ store.sessions) :
    Negotiates store [fromClient, fromServer] a b (firstCommon client server) := by
  obtain ⟨store', result, -, found⟩ := run_answer hello answer distinct absent absentReverse
  exact ⟨store', result, found⟩

/-- Seen first, the server's message is filed as the client's. -/
theorem negotiates_server_first {store : SshStore} {fromClient fromServer : SshInput}
    {a b : Endpoint} {client server : KexInit} (hello : Accepted fromClient a b client)
    (answer : Accepted fromServer b a server) (distinct : a ≠ b)
    (absent : flowOf a b ∉ store.sessions) (absentReverse : flowOf b a ∉ store.sessions) :
    Negotiates store [fromServer, fromClient] a b (firstCommon server client) := by
  obtain ⟨store', result, gone, found⟩ := run_answer answer hello distinct.symm absentReverse absent
  refine ⟨store', result, ?_⟩
  rwa [SshStore.connection_comm fun present => absurd present gone]

theorem firstCommon_eq_none_iff {client server : KexInit} :
    firstCommon client server = none ↔
      ∀ alg ∈ client.kexAlgorithms, alg ∉ server.kexAlgorithms := by
  simp [firstCommon]

theorem firstCommon_eq_iff {client server : KexInit} :
    firstCommon server client = firstCommon client server ↔
      (client.kexAlgorithms.filter (· ∈ server.kexAlgorithms)).head? =
        (server.kexAlgorithms.filter (· ∈ client.kexAlgorithms)).head? := by
  have injective : Function.Injective NegotiatedAlgorithms.mk := fun _ _ => by simp
  rw [firstCommon, firstCommon, (Option.map_injective injective).eq_iff, List.head?_filter,
    List.head?_filter]
  exact eq_comm

/-- In both orders the connection ends with the client's first common name exactly when the two
sides prefer the same name among those they share, and an endpoint does not answer itself. -/
theorem negotiates_either_order_iff {store : SshStore} {fromClient fromServer : SshInput}
    {a b : Endpoint} {client server : KexInit} (hello : Accepted fromClient a b client)
    (answer : Accepted fromServer b a server) (absent : flowOf a b ∉ store.sessions)
    (absentReverse : flowOf b a ∉ store.sessions) :
    (Negotiates store [fromClient, fromServer] a b (firstCommon client server) ∧
      Negotiates store [fromServer, fromClient] a b (firstCommon client server)) ↔
    (client.kexAlgorithms.filter (· ∈ server.kexAlgorithms)).head? =
        (server.kexAlgorithms.filter (· ∈ client.kexAlgorithms)).head? ∧
      (a ≠ b ∨ ∀ alg ∈ client.kexAlgorithms, alg ∉ server.kexAlgorithms) := by
  by_cases distinct : a = b
  · subst distinct
    obtain ⟨store', result, found⟩ := run_self hello answer absent
    obtain ⟨store'', result', found'⟩ := run_self answer hello absent
    have clientFirst : Negotiates store [fromClient, fromServer] a a none :=
      ⟨store', result, openedBy client, found, rfl⟩
    have serverFirst : Negotiates store [fromServer, fromClient] a a none :=
      ⟨store'', result', openedBy server, found', rfl⟩
    rw [← firstCommon_eq_none_iff, ← firstCommon_eq_iff]
    constructor
    · rintro ⟨agreed, -⟩
      have disjoint := agreed.unique clientFirst
      have disjoint' : firstCommon server client = none := by
        rw [firstCommon_eq_none_iff] at disjoint ⊢
        exact fun alg listed listed' => disjoint alg listed' listed
      exact ⟨disjoint'.trans disjoint.symm, .inr disjoint⟩
    · rintro ⟨-, different | disjoint⟩
      · exact absurd rfl different
      · rw [disjoint]
        exact ⟨clientFirst, serverFirst⟩
  · have clientFirst := negotiates_client_first hello answer distinct absent absentReverse
    have serverFirst := negotiates_server_first hello answer distinct absent absentReverse
    rw [← firstCommon_eq_iff]
    constructor
    · rintro ⟨-, agreed⟩
      exact ⟨serverFirst.unique agreed, .inl distinct⟩
    · rintro ⟨samePreference, -⟩
      rw [samePreference] at serverFirst
      exact ⟨clientFirst, serverFirst⟩

/-! ## Two messages of one connection -/

def messageBetween (sourcePort destinationPort : UInt16) (names : Bytes) : SshInput :=
  let payload : Bytes := [0, 0, 0, 0, 0, 20] ++ List.replicate 16 0 ++
    Bytes.ofUInt32 (.ofNat names.length) ++ names ++ List.replicate 36 0
  let host : Ipv4Addr := ⟨127, 0, 0, 1⟩
  (⟨some (.ipv4 host host), some (.tcp ⟨sourcePort, destinationPort, 0, payload⟩)⟩, payload)

def clientMessage : SshInput := messageBetween 50000 22 [97, 44, 98]

def serverMessage : SshInput := messageBetween 22 50000 [98, 44, 97]

def localhost (port : UInt16) : Endpoint := (.v4 ⟨127, 0, 0, 1⟩, port)

theorem accepted_clientMessage :
    Accepted clientMessage (localhost 50000) (localhost 22) ⟨["a", "b"]⟩ :=
  ⟨by decide +kernel, rfl⟩

theorem accepted_serverMessage :
    Accepted serverMessage (localhost 22) (localhost 50000) ⟨["b", "a"]⟩ :=
  ⟨by decide +kernel, rfl⟩

/-- With the server seen first the connection is said to use `b`, where the two sides use `a`. -/
theorem negotiated_depends_on_order :
    Accepted clientMessage (localhost 50000) (localhost 22) ⟨["a", "b"]⟩ ∧
      Accepted serverMessage (localhost 22) (localhost 50000) ⟨["b", "a"]⟩ ∧
      Negotiates .empty [clientMessage, serverMessage] (localhost 50000) (localhost 22)
        (some ⟨"a"⟩) ∧
      Negotiates .empty [serverMessage, clientMessage] (localhost 50000) (localhost 22)
        (some ⟨"b"⟩) ∧
      ¬Negotiates .empty [serverMessage, clientMessage] (localhost 50000) (localhost 22)
        (firstCommon ⟨["a", "b"]⟩ ⟨["b", "a"]⟩) := by
  have distinct : localhost 50000 ≠ localhost 22 := by decide
  have serverFirst : Negotiates .empty [serverMessage, clientMessage] (localhost 50000)
      (localhost 22) (some ⟨"b"⟩) :=
    negotiates_server_first accepted_clientMessage accepted_serverMessage distinct
      Finmap.notMem_empty Finmap.notMem_empty
  refine ⟨accepted_clientMessage, accepted_serverMessage, ?_, serverFirst, ?_⟩
  · exact negotiates_client_first accepted_clientMessage accepted_serverMessage distinct
      Finmap.notMem_empty Finmap.notMem_empty
  · intro agreed
    exact absurd (agreed.unique serverFirst) (by decide)

theorem negotiates_either_order_same_list :
    Negotiates .empty [clientMessage, messageBetween 22 50000 [97, 44, 98]]
        (localhost 50000) (localhost 22) (firstCommon ⟨["a", "b"]⟩ ⟨["a", "b"]⟩) ∧
      Negotiates .empty [messageBetween 22 50000 [97, 44, 98], clientMessage]
        (localhost 50000) (localhost 22) (firstCommon ⟨["a", "b"]⟩ ⟨["a", "b"]⟩) :=
  (negotiates_either_order_iff accepted_clientMessage ⟨by decide +kernel, rfl⟩
    Finmap.notMem_empty Finmap.notMem_empty).mpr ⟨by decide, .inl (by decide)⟩

end PqcUtils.Dump

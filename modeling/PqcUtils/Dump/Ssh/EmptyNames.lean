import PqcUtils.Dump.Ssh.Advertised

/-!
# Empty names

A list is split at its commas, so an empty list is one empty name, and a comma at
an end of a list or behind another comma makes one more. Such names are recorded
and negotiated like any other.
-/

namespace PqcUtils.Dump

open Bytes Text Wire

/-- The list is empty, or a comma of it has nothing on one side. -/
def HasEmptyName (text : String) : Prop :=
  text = "" ∨ text.toList.head? = some ',' ∨ text.toList.getLast? = some ',' ∨
    [',', ','] <:+: text.toList

def CarriesList (input : SshInput) (source destination : Endpoint) (text : String) : Prop :=
  input.1.endpoints = some (source, destination) ∧
    ∃ (header : Bytes) (message : Kexinit) (rest : Bytes), header.length = 5 ∧
      input.2 = header ++ message.encode ++ rest ∧ message.kexNames = text

def OpensWith (inputs : List SshInput) (source destination : Endpoint) (text : String) : Prop :=
  ∃ past input later, inputs = past ++ input :: later ∧
    CarriesList input source destination text ∧
    ∀ earlier ∈ past, ∀ other, ¬CarriesList earlier source destination other

/-! ## Lists and messages -/

theorem accepted_iff_carriesList {input : SshInput} {source destination : Endpoint}
    {kex : KexInit} :
    Accepted input source destination kex ↔
      ∃ text, CarriesList input source destination text ∧ kex = ⟨splitOn ',' text⟩ := by
  rw [Accepted, parseSshKexinit_eq_ok_iff]
  constructor
  · rintro ⟨⟨header, message, rest, five, split, rfl⟩, endpoints⟩
    exact ⟨message.kexNames, ⟨endpoints, header, message, rest, five, split, rfl⟩, rfl⟩
  · rintro ⟨text, ⟨endpoints, header, message, rest, five, split, rfl⟩, rfl⟩
    exact ⟨⟨header, message, rest, five, split, rfl⟩, endpoints⟩

theorem messageAlong_eq_none_iff {input : SshInput} {source destination : Endpoint} :
    messageAlong source destination input = none ↔
      ∀ text, ¬CarriesList input source destination text := by
  rw [Option.eq_none_iff_forall_ne_some]
  constructor
  · intro nothing text carries
    exact nothing ⟨splitOn ',' text⟩ (messageAlong_of_accepted
      (accepted_iff_carriesList.mpr ⟨text, carries, rfl⟩))
  · intro nothing kex carried
    obtain ⟨text, carries, -⟩ := accepted_iff_carriesList.mp (messageAlong_eq_some_iff.mp carried)
    exact nothing text carries

theorem firstMessage_eq_some_iff {inputs : List SshInput} {source destination : Endpoint}
    {kex : KexInit} :
    firstMessage inputs source destination = some kex ↔
      ∃ text, OpensWith inputs source destination text ∧ kex = ⟨splitOn ',' text⟩ := by
  rw [firstMessage, List.findSome?_eq_some_iff]
  constructor
  · rintro ⟨past, input, later, split, carried, before⟩
    obtain ⟨text, carries, rfl⟩ :=
      accepted_iff_carriesList.mp (messageAlong_eq_some_iff.mp carried)
    refine ⟨text, ⟨past, input, later, split, carries, fun earlier membership => ?_⟩, rfl⟩
    exact messageAlong_eq_none_iff.mp (before earlier membership)
  · rintro ⟨text, ⟨past, input, later, split, carries, before⟩, rfl⟩
    refine ⟨past, input, later, split, ?_, fun earlier membership => ?_⟩
    · exact messageAlong_of_accepted (accepted_iff_carriesList.mpr ⟨text, carries, rfl⟩)
    · exact messageAlong_eq_none_iff.mpr (before earlier membership)

theorem readNameListOwned_empty (rest : Bytes) :
    readNameListOwned (encodeText "" ++ rest) = .ok ([""], rest) := by
  have fits : FitsLength "" := by decide
  rw [readNameListOwned_eq, takeText_encodeText fits]
  rfl

/-! ## The store -/

/-- No host supports the empty name, no session has negotiated it, and the empty lists among the
messages are no names. -/
structure NoEmptyNames (inputs : List SshInput) (store : SshStore) : Prop where
  hosts : ∀ host, ¬store.Supports host ""
  sessions : ∀ flow session, store.sessions.lookup flow = some session →
    session.negotiated ≠ some ⟨""⟩
  lists : ∀ input ∈ inputs, ∀ source destination kex, Accepted input source destination kex →
    CarriesList input source destination "" → kex.kexAlgorithms = []

theorem supports_empty_iff {inputs : List SshInput} {store : SshStore}
    (result : runSsh inputs = some store) {host : String} :
    store.Supports host "" ↔
      ∃ a b text, a.1.display = host ∧ OpensWith inputs a b text ∧ HasEmptyName text := by
  rw [supports_iff result]
  constructor
  · rintro ⟨a, b, kex, same, first, listed⟩
    obtain ⟨text, opens, rfl⟩ := firstMessage_eq_some_iff.mp first
    exact ⟨a, b, text, same, opens, empty_mem_splitOn_iff.mp listed⟩
  · rintro ⟨a, b, text, same, opens, empty⟩
    exact ⟨a, b, _, same, firstMessage_eq_some_iff.mpr ⟨text, opens, rfl⟩,
      empty_mem_splitOn_iff.mpr empty⟩

theorem supports_empty_of_negotiated {inputs : List SshInput} {store : SshStore}
    (result : runSsh inputs = some store) {flow : FlowKey} {session : SshSession}
    (found : store.sessions.lookup flow = some session)
    (negotiated : session.negotiated = some ⟨""⟩) : ∃ host, store.Supports host "" := by
  have remembers := remembers_of_run result
  obtain ⟨a, b, rfl, -⟩ := remembers.consistent.named flow (Finmap.mem_of_lookup_eq_some found)
  obtain ⟨client, server, sent, -, agreed⟩ :=
    ((remembers.consistent.sound _ _ found).negotiated_iff "").mp negotiated
  refine ⟨a.1.display, (supports_iff result).mpr ⟨a, b, client, rfl, ?_, ?_⟩⟩
  · rw [← remembers.client a b session found, sent]
  · exact List.mem_of_find?_eq_some agreed

/-- In every run the store is free of empty names exactly if no direction starts with a list that
has one, and the messages have no empty list. -/
theorem noEmptyNames_iff (inputs : List SshInput) :
    ∃ store, runSsh inputs = some store ∧ (NoEmptyNames inputs store ↔
      (∀ source destination text, OpensWith inputs source destination text →
        ¬HasEmptyName text) ∧
      ∀ input ∈ inputs, ∀ source destination, ¬CarriesList input source destination "") := by
  obtain ⟨store, result⟩ := exists_runSsh inputs
  refine ⟨store, result, ?_⟩
  constructor
  · rintro ⟨hosts, -, lists⟩
    constructor
    · intro source destination text opens empty
      exact hosts _ ((supports_empty_iff result).mpr ⟨source, destination, text, rfl, opens, empty⟩)
    · intro input membership source destination carries
      have accepted : Accepted input source destination ⟨splitOn ',' ""⟩ :=
        accepted_iff_carriesList.mpr ⟨"", carries, rfl⟩
      have nothing := lists input membership source destination _ accepted carries
      exact absurd nothing (by decide)
  · rintro ⟨first, lists⟩
    have hosts (host : String) : ¬store.Supports host "" := by
      intro supports
      obtain ⟨a, b, text, -, opens, empty⟩ := (supports_empty_iff result).mp supports
      exact first a b text opens empty
    refine ⟨hosts, ?_, ?_⟩
    · intro flow session found negotiated
      obtain ⟨host, supports⟩ := supports_empty_of_negotiated result found negotiated
      exact hosts host supports
    · intro input membership source destination kex _ carries
      exact absurd carries (lists input membership source destination)

/-- A client and a server that offer no algorithm at all have agreed on the empty one. -/
theorem empty_name_negotiated :
    ∃ store, runSsh [messageBetween 50000 22 [], messageBetween 22 50000 []] = some store ∧
      store.Supports "127.0.0.1" "" ∧
      (∃ session, store.sessions.lookup (flowOf (localhost 50000) (localhost 22)) = some session ∧
        session.negotiated = some ⟨""⟩) ∧
      (∀ rest, readNameListOwned (encodeText "" ++ rest) = .ok ([""], rest)) ∧
      ¬NoEmptyNames [messageBetween 50000 22 [], messageBetween 22 50000 []] store := by
  have hello : Accepted (messageBetween 50000 22 []) (localhost 50000) (localhost 22) ⟨[""]⟩ :=
    ⟨by decide +kernel, rfl⟩
  have answer : Accepted (messageBetween 22 50000 []) (localhost 22) (localhost 50000) ⟨[""]⟩ :=
    ⟨by decide +kernel, rfl⟩
  have distinct : localhost 50000 ≠ localhost 22 := by decide
  have unopened (a b : Endpoint) : flowOf a b ∉ SshStore.empty.sessions := Finmap.notMem_empty
  obtain ⟨store, result, absent, session, found, negotiated⟩ :=
    run_answer hello answer distinct (unopened _ _) (unopened _ _)
  have forward : store.sessions.lookup (flowOf (localhost 50000) (localhost 22)) =
      some session := by
    rw [SshStore.connection, Finmap.lookup_eq_none.mpr absent, Option.or_none] at found
    exact found
  have agreed : session.negotiated = some ⟨""⟩ := by
    rw [negotiated]
    decide
  have supported : store.Supports "127.0.0.1" "" := by
    refine (supports_iff result).mpr ⟨localhost 50000, localhost 22, ⟨[""]⟩, by decide, ?_, by simp⟩
    rw [firstMessage, List.findSome?_cons, messageAlong_of_accepted hello]
  refine ⟨store, result, supported, ⟨session, forward, agreed⟩, readNameListOwned_empty,
    fun clean => ?_⟩
  exact clean.hosts _ supported

end PqcUtils.Dump

import PqcUtils.Dump.Report.Contents

/-!
# Longer captures

What a report lists is told by some packet, and later packets do not take it off the
lists, with one exception: a server that answers its client again replaces the group
of their session. Labels may change, but an SSH host that is called post-quantum stays
so.
-/

namespace PqcUtils.Dump

open Net HashMap Wire

variable {tables : Tables} {capture more : List (Option SlicedPacket)}

/-! ## Facts of a longer row -/

def traceAfter (capture more : List (Option SlicedPacket)) : List Dispatch :=
  dispatches (flowsAfter ∅ capture) more

theorem trace_append (capture more : List (Option SlicedPacket)) :
    trace (capture ++ more) = trace capture ++ traceAfter capture more :=
  dispatches_append ∅ capture more

theorem mem_trace_append {dispatch : Dispatch} (membership : dispatch ∈ trace capture) :
    dispatch ∈ trace (capture ++ more) := by
  rw [trace_append]
  exact List.mem_append_left _ membership

theorem firstMessage_of_append {inputs : List SshInput} {a b : Endpoint} {kex : KexInit}
    (first : firstMessage inputs a b = some kex) (later : List SshInput) :
    firstMessage (inputs ++ later) a b = some kex := by
  rw [firstMessage] at first
  rw [firstMessage, List.findSome?_append, first, Option.some_or]

theorem Opens.append {inputs : List SshInput} {client server : Endpoint}
    (opens : Opens inputs client server) (more : List SshInput) :
    Opens (inputs ++ more) client server := by
  obtain ⟨earlier, input, later, kex, rfl, accepted, unheard⟩ := opens
  exact ⟨earlier, input, later ++ more, kex, by simp, accepted, unheard⟩

theorem Agreed.append {inputs : List SshInput} {client server : Endpoint} {kex : String}
    (agreed : Agreed inputs client server kex) (more : List SshInput) :
    Agreed (inputs ++ more) client server kex := by
  obtain ⟨offer, answer, offered, answered, common⟩ := agreed.first
  exact ⟨agreed.opens.append more, agreed.distinct, offer, answer,
    firstMessage_of_append offered more, firstMessage_of_append answered more, common⟩

theorem lastGroup_append (row later : List Dispatch) (server client : Endpoint) :
    lastGroup (row ++ later) server client =
      (lastGroup later server client).or (lastGroup row server client) := by
  simp [lastGroup, List.findSome?_append]

theorem ToldFrom.append {part : CryptoConfig → List UInt16} {host : String} {value : UInt16}
    (told : ToldFrom capture part host value) (more : List (Option SlicedPacket)) :
    ToldFrom (capture ++ more) part host value := by
  obtain ⟨dispatch, membership, rest⟩ := told
  exact ⟨dispatch, mem_trace_append membership, rest⟩

theorem SentHello.append {part : CryptoConfig → List UInt16} {ip : IpAddr}
    (sent : SentHello capture part ip) (more : List (Option SlicedPacket)) :
    SentHello (capture ++ more) part ip := by
  obtain ⟨dispatch, membership, rest⟩ := sent
  exact ⟨dispatch, mem_trace_append membership, rest⟩

theorem SentKexinit.append {ip : IpAddr} (sent : SentKexinit capture ip)
    (more : List (Option SlicedPacket)) : SentKexinit (capture ++ more) ip := by
  obtain ⟨dispatch, membership, rest⟩ := sent
  exact ⟨dispatch, mem_trace_append membership, rest⟩

theorem Ipv4Only.append (ipv4 : Ipv4Only capture) (ipv4' : Ipv4Only more) :
    Ipv4Only (capture ++ more) := by
  intro packet source destination membership
  rcases List.mem_append.mp membership with earlier | later
  · exact ipv4 packet source destination earlier
  · exact ipv4' packet source destination later

theorem ListsPqc.append {inputs : List SshInput} {host : String}
    (lists : ListsPqc tables inputs host) (more : List SshInput) :
    ListsPqc tables (inputs ++ more) host := by
  obtain ⟨a, b, kex, named, first, listed⟩ := lists
  exact ⟨a, b, kex, named, firstMessage_of_append first more, listed⟩

theorem TellsPqc.append {host : String} (tells : TellsPqc tables capture host)
    (more : List (Option SlicedPacket)) : TellsPqc tables (capture ++ more) host := by
  obtain ⟨value, told, known⟩ := tells
  exact ⟨value, told.append more, known⟩

theorem Answered.append {row : List Dispatch} {server client : Endpoint}
    (answered : Answered row server client) (later : List Dispatch) :
    Answered (row ++ later) server client := by
  obtain ⟨dispatch, membership, rest⟩ := answered
  exact ⟨dispatch, List.mem_append_left _ membership, rest⟩

/-! ## The report of a longer capture -/

/-- What the earlier report lists is listed by the later one, except for the groups of sessions with
a new answer. Of the labels only that of an SSH host that supports a post-quantum name is kept. -/
structure Report.Grows (later : List Dispatch) (before after : Report) : Prop where
  hosts : before.hosts ⊆ after.hosts
  pqcHosts : before.pqcHosts ⊆ after.pqcHosts
  sshHosts : before.sshHosts ⊆ after.sshHosts
  sshLabels : ∀ host ∈ before.sshHosts, before.sshHostsPqc.lookup host = some pqcSupportedText →
    after.sshHostsPqc.lookup host = some pqcSupportedText
  sshAlgos : ∀ host, before.sshHostsPqcAlgos.members host ⊆ after.sshHostsPqcAlgos.members host
  sshSessions : ∀ ip, before.sshSessionsResults.members ip ⊆ after.sshSessionsResults.members ip
  tlsHosts : before.tlsHosts ⊆ after.tlsHosts
  tlsCiphers : ∀ host, before.tlsHostsCiphers.members host ⊆ after.tlsHostsCiphers.members host
  tlsGroups : ∀ host,
    before.tlsHostCapabilities.members host ⊆ after.tlsHostCapabilities.members host
  tlsClients : ∀ ip ∈ before.tlsSessionsResults, ip ∈ after.tlsSessionsResults
  tlsSessions : ∀ ip, ∀ shown ∈ before.tlsSessionsResults.members ip,
    shown ∈ after.tlsSessionsResults.members ip ∨
      ∃ client server group, shown = tlsShown client server group ∧ Answered later server client

theorem Report.Reflects.grows {before after : Report} (reflects : before.Reflects tables capture)
    (reflects' : after.Reflects tables (capture ++ more)) :
    before.Grows (traceAfter capture more) after := by
  have row := trace_append capture more
  have listed : before.sshHosts ⊆ after.sshHosts := by
    intro host
    rw [reflects.sshHosts, reflects'.sshHosts]
    rintro ⟨ip, shown, sent⟩
    exact ⟨ip, shown, sent.append more⟩
  constructor
  · intro host
    rw [reflects.hosts, reflects'.hosts]
    rintro ⟨ip, shown, sent | sent⟩
    · exact ⟨ip, shown, .inl (sent.append more)⟩
    · exact ⟨ip, shown, .inr (sent.append more)⟩
  · intro host
    rw [reflects.pqcHosts, reflects'.pqcHosts, row]
    exact Or.imp (fun lists => lists.append _) fun tells => tells.append more
  · exact listed
  · intro host among supported
    rw [reflects'.sshLabels host (listed among), row]
    exact ((reflects.sshLabels host among).mp supported).append _
  · intro host details
    rw [reflects.sshAlgos, reflects'.sshAlgos, row]
    rintro ⟨a, b, kex, named, first, rest⟩
    exact ⟨a, b, kex, named, firstMessage_of_append first _, rest⟩
  · intro ip shown
    rw [reflects.sshSessions, reflects'.sshSessions, row]
    rintro ⟨client, server, kex, algo, agreed, rest⟩
    exact ⟨client, server, kex, algo, agreed.append _, rest⟩
  · intro host
    rw [reflects.tlsHosts, reflects'.tlsHosts]
    rintro ⟨ip, shown, sent⟩
    exact ⟨ip, shown, sent.append more⟩
  · intro host name
    rw [reflects.tlsCiphers, reflects'.tlsCiphers]
    rintro ⟨suite, told, named⟩
    exact ⟨suite, told.append more, named⟩
  · intro host details
    rw [reflects.tlsGroups, reflects'.tlsGroups]
    rintro ⟨group, told, among⟩
    exact ⟨group, told.append more, among⟩
  · intro ip
    rw [reflects.tlsClients, reflects'.tlsClients, row]
    rintro ⟨client, server, shown, answered⟩
    exact ⟨client, server, shown, answered.append _⟩
  · intro ip shown
    rw [reflects.tlsSessions, reflects'.tlsSessions, row]
    rintro ⟨client, server, value, group, last, known, shownIp, rfl⟩
    cases again : lastGroup (traceAfter capture more) server client with
    | none =>
      refine .inl ⟨client, server, value, group, ?_, known, shownIp, rfl⟩
      rw [lastGroup_append, again, Option.none_or, last]
    | some other =>
      obtain ⟨dispatch, membership, sent, set⟩ :=
        exists_answer_of_lastGroup (fun _ membership => (mem_dispatches membership).2) again
      exact .inr ⟨client, server, group, rfl, dispatch, membership, other, sent, set⟩

end PqcUtils.Dump

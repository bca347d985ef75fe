import PqcUtils.Dump.Ssh.Parsing
import PqcUtils.Dump.Ssh.Store

/-!
# The SSH store over whole runs

After any sequence of packets there is one session per pair of endpoints that a
message was accepted between, its negotiated algorithm is the first common name,
and the capabilities of a host are the names its sessions were sent from it.
What a session has recorded never changes.
-/

namespace PqcUtils.Dump

open Net

/-! ## Runs -/

abbrev SshInput := SlicedPacket × Bytes

def sshStep (store : SshStore) (input : SshInput) : Option SshStore :=
  processSsh input.1 input.2 store

def runSsh (inputs : List SshInput) : Option SshStore := Runs.run sshStep .empty inputs

def Accepted (input : SshInput) (source destination : Endpoint) (kex : KexInit) : Prop :=
  parseSshKexinit input.2 = .ok kex ∧ input.1.endpoints = some (source, destination)

def AcceptedBetween (inputs : List SshInput) (first second : Endpoint) : Prop :=
  ∃ input ∈ inputs, ∃ kex, Accepted input first second kex ∨ Accepted input second first kex

theorem sshStep_cases (store : SshStore) (input : SshInput) :
    (∃ source destination kex, Accepted input source destination kex ∧
      sshStep store input =
        some (recordKex store source.1.display (flowOf source destination) kex)) ∨
    (∀ source destination kex, ¬Accepted input source destination kex) ∧
      sshStep store input = some store := by
  unfold sshStep processSsh Accepted
  cases parsed : parseSshKexinit input.2 with
  | panic => exact absurd parsed (parseSshKexinit_ne_panic _)
  | err error => exact .inr ⟨by simp, rfl⟩
  | ok kex =>
    cases endpoints : input.1.endpoints with
    | none => exact .inr ⟨by simp, rfl⟩
    | some ends =>
      obtain ⟨source, destination⟩ := ends
      exact .inl ⟨source, destination, kex, ⟨rfl, rfl⟩, rfl⟩

theorem Accepted.unique {input : SshInput} {a b c d : Endpoint} {kex kex' : KexInit}
    (first : Accepted input a b kex) (second : Accepted input c d kex') :
    a = c ∧ b = d ∧ kex = kex' := by
  have endpoints := first.2.symm.trans second.2
  have lists := first.1.symm.trans second.1
  simp only [Option.some.injEq, Prod.mk.injEq, Outcome.ok.injEq] at endpoints lists
  exact ⟨endpoints.1, endpoints.2, lists⟩

/-! ## What the sessions say about the hosts -/

def FlowKey.sourceIp (flow : FlowKey) : Option String := printedIp flow.src

def FlowKey.destinationIp (flow : FlowKey) : Option String := printedIp flow.dst

theorem printedIp_key (endpoint : Endpoint) :
    printedIp endpoint.key = some endpoint.1.display := by
  obtain ⟨address, read, ip, -⟩ := parse_key endpoint
  simp [printedIp, read, ip]

/-- A session records the list as one that was sent from the host. -/
def Offer (sessions : HashMap FlowKey SshSession) (host : String) (kex : KexInit) : Prop :=
  ∃ flow session, sessions.lookup flow = some session ∧
    (flow.sourceIp = some host ∧ session.clientKexinit = some kex ∨
      flow.destinationIp = some host ∧ session.serverKexinit = some kex)

theorem offer_open {sessions : HashMap FlowKey SshSession} {flow : FlowKey}
    (absent : flow ∉ sessions) (kex : KexInit) (host : String) (other : KexInit) :
    Offer (Finmap.insert flow (openedBy kex) sessions) host other ↔
      Offer sessions host other ∨ flow.sourceIp = some host ∧ other = kex := by
  constructor
  · rintro ⟨key, session, found, sent⟩
    rcases HashMap.lookup_insert_eq_some_iff.mp found with ⟨rfl, rfl⟩ | ⟨-, there⟩
    · rcases sent with ⟨host, list⟩ | ⟨-, list⟩
      · exact .inr ⟨host, by simpa [openedBy] using list.symm⟩
      · simp [openedBy] at list
    · exact .inl ⟨key, session, there, sent⟩
  · rintro (⟨key, session, found, sent⟩ | ⟨host, rfl⟩)
    · have distinct : key ≠ flow := by
        rintro rfl
        exact absent (Finmap.mem_of_lookup_eq_some found)
      exact ⟨key, session, HashMap.lookup_insert_eq_some_iff.mpr (.inr ⟨distinct, found⟩), sent⟩
    · exact ⟨flow, openedBy other, Finmap.lookup_insert _, .inl ⟨host, rfl⟩⟩

theorem offer_answer {sessions : HashMap FlowKey SshSession} {key : FlowKey}
    {session : SshSession} (found : sessions.lookup key = some session)
    (unanswered : session.serverKexinit = none) (kex : KexInit) (host : String)
    (other : KexInit) :
    Offer (Finmap.insert key (session.answeredBy kex) sessions) host other ↔
      Offer sessions host other ∨ key.destinationIp = some host ∧ other = kex := by
  constructor
  · rintro ⟨flow, session', found', sent⟩
    rcases HashMap.lookup_insert_eq_some_iff.mp found' with ⟨rfl, rfl⟩ | ⟨-, there⟩
    · rcases sent with sent | ⟨host, list⟩
      · exact .inl ⟨flow, session, found, .inl sent⟩
      · exact .inr ⟨host, by simpa [SshSession.answeredBy] using list.symm⟩
    · exact .inl ⟨flow, session', there, sent⟩
  · rintro (⟨flow, session', found', sent⟩ | ⟨host, rfl⟩)
    · by_cases same : flow = key
      · subst same
        cases found.symm.trans found'
        refine ⟨flow, session.answeredBy kex, Finmap.lookup_insert _, .inl ?_⟩
        simpa [unanswered, SshSession.answeredBy] using sent
      · exact ⟨flow, session', HashMap.lookup_insert_eq_some_iff.mpr (.inr ⟨same, found'⟩), sent⟩
    · exact ⟨key, session.answeredBy other, Finmap.lookup_insert _, .inr ⟨host, rfl⟩⟩

/-- The capabilities are what the sessions say, host by host. -/
structure Capable (sessions : HashMap FlowKey SshSession)
    (hostCaps : HashMap String HostCapabilities) : Prop where
  hosts : ∀ host, host ∈ hostCaps ↔ ∃ kex, Offer sessions host kex
  names : ∀ host caps, hostCaps.lookup host = some caps →
    (caps.supportedKex : Set String) = {alg | ∃ kex, Offer sessions host kex ∧
      alg ∈ kex.kexAlgorithms}

theorem mem_foldl_insert (names : List String) (supported : Finset String) (alg : String) :
    alg ∈ names.foldl (fun supported alg => insert alg supported) supported ↔
      alg ∈ supported ∨ alg ∈ names := by
  induction names generalizing supported with
  | nil => simp
  | cons name names ih =>
    rw [List.foldl_cons, ih, Finset.mem_insert, List.mem_cons]
    tauto

theorem Capable.mem_getD {sessions : HashMap FlowKey SshSession}
    {hostCaps : HashMap String HostCapabilities} (capable : Capable sessions hostCaps)
    (host alg : String) :
    alg ∈ ((hostCaps.lookup host).getD default).supportedKex ↔
      ∃ kex, Offer sessions host kex ∧ alg ∈ kex.kexAlgorithms := by
  cases known : hostCaps.lookup host with
  | none =>
    have noOffer := (capable.hosts host).not.mp (Finmap.lookup_eq_none.mp known)
    push Not at noOffer
    simp [default, noOffer]
  | some caps => simpa using Set.ext_iff.mp (capable.names host caps known) alg

theorem Capable.update {sessions sessions' : HashMap FlowKey SshSession}
    {hostCaps : HashMap String HostCapabilities} (capable : Capable sessions hostCaps)
    {srcIp : String} {kex : KexInit}
    (offers : ∀ host other, Offer sessions' host other ↔
      Offer sessions host other ∨ host = srcIp ∧ other = kex) :
    Capable sessions' (updateHostCaps hostCaps srcIp kex) where
  hosts host := by
    rw [updateHostCaps, HashMap.mem_update, capable.hosts]
    constructor
    · rintro (rfl | ⟨other, offered⟩)
      · exact ⟨kex, (offers _ _).mpr (.inr ⟨rfl, rfl⟩)⟩
      · exact ⟨other, (offers _ _).mpr (.inl offered)⟩
    · rintro ⟨other, offered⟩
      rcases (offers _ _).mp offered with before | ⟨rfl, -⟩
      · exact .inr ⟨other, before⟩
      · exact .inl rfl
  names host caps found := by
    ext alg
    simp only [Set.mem_ofPred_eq, Finset.mem_coe, offers]
    by_cases same : host = srcIp
    · subst same
      rw [updateHostCaps, HashMap.lookup_update_self, Option.some.injEq] at found
      subst found
      rw [mem_foldl_insert, capable.mem_getD]
      constructor
      · rintro (⟨other, offered, listed⟩ | listed)
        · exact ⟨other, .inl offered, listed⟩
        · exact ⟨kex, .inr ⟨rfl, rfl⟩, listed⟩
      · rintro ⟨other, offered | ⟨-, rfl⟩, listed⟩
        · exact .inl ⟨other, offered, listed⟩
        · exact .inr listed
    · rw [updateHostCaps, HashMap.lookup_update_of_ne _ _ _ same] at found
      have before := Set.ext_iff.mp (capable.names host caps found) alg
      simp only [same, false_and, or_false]
      simpa using before

/-! ## What never changes -/

/-- Whatever the earlier session has recorded, the later one has recorded too. -/
structure SshSession.Keeps (before after : SshSession) : Prop where
  client : ∀ kex, before.clientKexinit = some kex → after.clientKexinit = some kex
  server : ∀ kex, before.serverKexinit = some kex → after.serverKexinit = some kex
  negotiated : ∀ agreed, before.negotiated = some agreed → after.negotiated = some agreed

theorem SshSession.Keeps.refl (session : SshSession) : session.Keeps session :=
  ⟨fun _ => id, fun _ => id, fun _ => id⟩

theorem SshSession.Keeps.trans {first second third : SshSession} (earlier : first.Keeps second)
    (later : second.Keeps third) : first.Keeps third :=
  ⟨fun kex recorded => later.client kex (earlier.client kex recorded),
    fun kex recorded => later.server kex (earlier.server kex recorded),
    fun agreed recorded => later.negotiated agreed (earlier.negotiated agreed recorded)⟩

def SshStore.Keeps (before after : SshStore) : Prop :=
  ∀ flow session, before.sessions.lookup flow = some session →
    ∃ session', after.sessions.lookup flow = some session' ∧ session.Keeps session'

theorem SshStore.Keeps.refl (store : SshStore) : store.Keeps store :=
  fun _ session found => ⟨session, found, .refl session⟩

theorem SshSession.Sound.keeps_answeredBy {session : SshSession} (sound : session.Sound)
    (unanswered : session.serverKexinit = none) (kex : KexInit) :
    session.Keeps (session.answeredBy kex) where
  client _ := id
  server other recorded := by simp [unanswered] at recorded
  negotiated agreed recorded := by
    rw [sound.negotiated, SshSession.agreed, unanswered] at recorded
    cases client : session.clientKexinit <;> simp [client] at recorded

theorem SshStore.Keeps.insert {store : SshStore} {flow : FlowKey} {session : SshSession}
    {hostCaps : HashMap String HostCapabilities}
    (kept : ∀ before, store.sessions.lookup flow = some before → before.Keeps session) :
    store.Keeps ⟨Finmap.insert flow session store.sessions, hostCaps⟩ := by
  intro other before found
  simp only [HashMap.lookup_insert_eq]
  split
  · next same =>
    subst same
    exact ⟨session, rfl, kept before found⟩
  · exact ⟨before, found, .refl before⟩

theorem recordKex_keeps {store : SshStore} (sound : store.Sound) (srcIp : String) (flow : FlowKey)
    (kex : KexInit) : store.Keeps (recordKex store srcIp flow kex) := by
  rcases recordKex_cases sound srcIp flow kex with
    ⟨-, -, same⟩ | ⟨absent, -, opened⟩ | ⟨session, -, found, unanswered, answered⟩
  · rw [same]
    exact .refl store
  · rw [opened]
    apply SshStore.Keeps.insert
    intro before found
    exact absurd (Finmap.mem_of_lookup_eq_some found) absent
  · rw [answered]
    apply SshStore.Keeps.insert
    intro before found'
    cases found.symm.trans found'
    exact (sound _ _ found).keeps_answeredBy unanswered kex

theorem sshStep_keeps {before after : SshStore} {input : SshInput} (sound : before.Sound)
    (stepped : sshStep before input = some after) : after.Sound ∧ before.Keeps after := by
  rcases sshStep_cases before input with
    ⟨source, destination, kex, -, recorded⟩ | ⟨-, same⟩
  · rw [recorded, Option.some.injEq] at stepped
    subst stepped
    exact ⟨recordKex_sound sound _ _ _, recordKex_keeps sound _ _ _⟩
  · rw [same, Option.some.injEq] at stepped
    subst stepped
    exact ⟨sound, .refl _⟩

theorem run_keeps {before after : SshStore} {inputs : List SshInput} (sound : before.Sound)
    (result : Runs.run sshStep before inputs = some after) : before.Keeps after := by
  have both : after.Sound ∧ before.Keeps after := by
    apply Runs.invariant_of_run (fun store => store.Sound ∧ before.Keeps store) _
      ⟨sound, .refl before⟩ result
    rintro middle input next ⟨middleSound, kept⟩ stepped
    obtain ⟨nextSound, nextKept⟩ := sshStep_keeps middleSound stepped
    refine ⟨nextSound, fun flow session found => ?_⟩
    obtain ⟨session', found', earlier⟩ := kept flow session found
    obtain ⟨session'', found'', later⟩ := nextKept flow session' found'
    exact ⟨session'', found'', earlier.trans later⟩
  exact both.2

/-! ## The invariant -/

/-- How the store and the packets seen so far belong together. -/
structure Consistent (past : List SshInput) (store : SshStore) : Prop where
  sound : store.Sound
  named : ∀ flow ∈ store.sessions, ∃ a b, flow = flowOf a b ∧ AcceptedBetween past a b
  covered : ∀ a b, AcceptedBetween past a b →
    flowOf a b ∈ store.sessions ∨ flowOf b a ∈ store.sessions
  oriented : ∀ flow ∈ store.sessions, flow.reverse ∈ store.sessions → flow.reverse = flow
  capable : Capable store.sessions store.hostCaps

theorem consistent_empty : Consistent [] .empty where
  sound := SshStore.sound_empty
  named _ present := absurd present Finmap.notMem_empty
  covered a b := by simp [AcceptedBetween]
  oriented _ present := absurd present Finmap.notMem_empty
  capable := ⟨by simp [SshStore.empty, Offer, Finmap.notMem_empty], by simp [SshStore.empty]⟩

theorem acceptedBetween_append {past : List SshInput} {input : SshInput} {a b : Endpoint} :
    AcceptedBetween (past ++ [input]) a b ↔
      AcceptedBetween past a b ∨ ∃ kex, Accepted input a b kex ∨ Accepted input b a kex := by
  simp [AcceptedBetween, or_and_right, exists_or]

theorem Consistent.skip {past : List SshInput} {store : SshStore}
    (consistent : Consistent past store) {input : SshInput}
    (rejected : ∀ source destination kex, ¬Accepted input source destination kex) :
    Consistent (past ++ [input]) store := by
  have same (a b : Endpoint) :
      AcceptedBetween (past ++ [input]) a b ↔ AcceptedBetween past a b := by
    simp [acceptedBetween_append, rejected]
  exact ⟨consistent.sound, by simpa only [same] using consistent.named,
    by simpa only [same] using consistent.covered, consistent.oriented, consistent.capable⟩

theorem Consistent.covered_append {past : List SshInput} {store : SshStore}
    (consistent : Consistent past store) {input : SshInput} {source destination : Endpoint}
    {kex : KexInit} (accepted : Accepted input source destination kex)
    {sessions : HashMap FlowKey SshSession} (grows : ∀ flow ∈ store.sessions, flow ∈ sessions)
    (holds : flowOf source destination ∈ sessions ∨ flowOf destination source ∈ sessions) :
    ∀ a b, AcceptedBetween (past ++ [input]) a b →
      flowOf a b ∈ sessions ∨ flowOf b a ∈ sessions := by
  intro a b between
  rcases acceptedBetween_append.mp between with before | ⟨kex', forward | backward⟩
  · exact (consistent.covered a b before).imp (grows _) (grows _)
  · obtain ⟨rfl, rfl, -⟩ := forward.unique accepted
    exact holds
  · obtain ⟨rfl, rfl, -⟩ := backward.unique accepted
    exact holds.symm

theorem Consistent.oriented_insert {past : List SshInput} {store : SshStore}
    (consistent : Consistent past store) {opened : FlowKey} (session : SshSession)
    (absentReverse : opened.reverse ∉ store.sessions) :
    ∀ flow ∈ Finmap.insert opened session store.sessions,
      flow.reverse ∈ Finmap.insert opened session store.sessions → flow.reverse = flow := by
  intro flow present presentReverse
  rcases Finmap.mem_insert.mp present with rfl | present
  · rcases Finmap.mem_insert.mp presentReverse with same | presentReverse
    · exact same
    · exact absurd presentReverse absentReverse
  · rcases Finmap.mem_insert.mp presentReverse with same | presentReverse
    · rw [← same, reverse_reverse] at absentReverse
      exact absurd present absentReverse
    · exact consistent.oriented flow present presentReverse

theorem Consistent.record {past : List SshInput} {store : SshStore}
    (consistent : Consistent past store) {input : SshInput} {source destination : Endpoint}
    {kex : KexInit} (accepted : Accepted input source destination kex) :
    Consistent (past ++ [input])
      (recordKex store source.1.display (flowOf source destination) kex) := by
  have between : AcceptedBetween (past ++ [input]) source destination :=
    acceptedBetween_append.mpr (.inr ⟨kex, .inl accepted⟩)
  have earlier : ∀ flow ∈ store.sessions, ∃ a b, flow = flowOf a b ∧
      AcceptedBetween (past ++ [input]) a b := by
    intro flow present
    obtain ⟨a, b, same, before⟩ := consistent.named flow present
    exact ⟨a, b, same, acceptedBetween_append.mpr (.inl before)⟩
  have sound := recordKex_sound consistent.sound source.1.display (flowOf source destination) kex
  rcases recordKex_cases consistent.sound source.1.display (flowOf source destination) kex with
    ⟨holds, -, same⟩ | ⟨absent, absentReverse, opened⟩ |
    ⟨session, absent, found, unanswered, answered⟩
  · rw [same] at sound ⊢
    exact ⟨sound, earlier, consistent.covered_append accepted (fun _ => id) holds,
      consistent.oriented, consistent.capable⟩
  · rw [opened] at sound ⊢
    refine ⟨sound, ?_, ?_, ?_, ?_⟩
    · intro flow present
      rcases Finmap.mem_insert.mp present with rfl | present
      · exact ⟨source, destination, rfl, between⟩
      · exact earlier flow present
    · exact consistent.covered_append accepted
        (fun _ present => Finmap.mem_insert.mpr (.inr present))
        (.inl (Finmap.mem_insert.mpr (.inl rfl)))
    · exact consistent.oriented_insert _ absentReverse
    · apply consistent.capable.update
      intro host other
      rw [offer_open absent, FlowKey.sourceIp, flowOf, printedIp_key, Option.some.injEq, eq_comm]
  · have presentReverse := Finmap.mem_of_lookup_eq_some found
    have sameKeys : ∀ flow, flow ∈ Finmap.insert (flowOf source destination).reverse
        (session.answeredBy kex) store.sessions ↔ flow ∈ store.sessions := by
      intro flow
      rw [Finmap.mem_insert, or_iff_right_iff_imp]
      rintro rfl
      exact presentReverse
    rw [answered] at sound ⊢
    refine ⟨sound, ?_, ?_, ?_, ?_⟩
    · intro flow present
      exact earlier flow ((sameKeys flow).mp present)
    · exact consistent.covered_append accepted (fun flow => (sameKeys flow).mpr)
        (.inr ((sameKeys _).mpr presentReverse))
    · intro flow present presentReverse
      exact consistent.oriented flow ((sameKeys _).mp present) ((sameKeys _).mp presentReverse)
    · apply consistent.capable.update
      intro host other
      rw [offer_answer found unanswered, FlowKey.destinationIp, reverse_flowOf, flowOf,
        printedIp_key, Option.some.injEq, eq_comm]

theorem Consistent.step {past : List SshInput} {before after : SshStore} {input : SshInput}
    (consistent : Consistent past before) (stepped : sshStep before input = some after) :
    Consistent (past ++ [input]) after := by
  rcases sshStep_cases before input with
    ⟨source, destination, kex, accepted, recorded⟩ | ⟨rejected, same⟩
  · rw [recorded, Option.some.injEq] at stepped
    subst stepped
    exact consistent.record accepted
  · rw [same, Option.some.injEq] at stepped
    subst stepped
    exact consistent.skip rejected

theorem exists_runSsh (inputs : List SshInput) : ∃ store, runSsh inputs = some store := by
  apply Runs.exists_run (fun _ => True) _ inputs trivial
  intro store input _
  rcases sshStep_cases store input with ⟨_, _, _, -, recorded⟩ | ⟨-, same⟩
  · exact ⟨_, recorded, trivial⟩
  · exact ⟨_, same, trivial⟩

theorem consistent_of_run {inputs : List SshInput} {store : SshStore}
    (result : runSsh inputs = some store) : Consistent inputs store :=
  Runs.history_of_run Consistent (fun _ _ _ _ consistent stepped => consistent.step stepped) []
    consistent_empty result

/-! ## What a run leaves behind -/

/-- The store after a run, in terms of the messages and of the sessions alone. -/
structure StoreInvariant (inputs : List SshInput) (store : SshStore) : Prop where
  onePerPair : ∀ a b, AcceptedBetween inputs a b ↔
    ∃! flow, flow ∈ store.sessions ∧ (flow = flowOf a b ∨ flow = flowOf b a)
  named : ∀ flow ∈ store.sessions, ∃ a b, flow = flowOf a b ∧ AcceptedBetween inputs a b
  oriented : ∀ flow ∈ store.sessions, flow.reverse ∈ store.sessions → flow.reverse = flow
  negotiates : ∀ flow session, store.sessions.lookup flow = some session →
    (session.negotiated.isSome ↔ ∃ client server, session.clientKexinit = some client ∧
      session.serverKexinit = some server ∧
      ∃ alg ∈ client.kexAlgorithms, alg ∈ server.kexAlgorithms)
  negotiated : ∀ flow session, store.sessions.lookup flow = some session →
    ∀ kex, session.negotiated = some ⟨kex⟩ ↔ ∃ client server,
      session.clientKexinit = some client ∧ session.serverKexinit = some server ∧
      client.kexAlgorithms.find? (· ∈ server.kexAlgorithms) = some kex
  kept : ∀ more store', Runs.run sshStep store more = some store' → store.Keeps store'
  capable : Capable store.sessions store.hostCaps

theorem SshSession.Sound.negotiated_iff {session : SshSession} (sound : session.Sound)
    (kex : String) :
    session.negotiated = some ⟨kex⟩ ↔ ∃ client server,
      session.clientKexinit = some client ∧ session.serverKexinit = some server ∧
      client.kexAlgorithms.find? (· ∈ server.kexAlgorithms) = some kex := by
  rw [sound.negotiated, SshSession.agreed]
  cases client : session.clientKexinit with
  | none => simp
  | some client =>
    cases server : session.serverKexinit with
    | none => simp
    | some server => simp [negotiate_eq_find?]

theorem SshSession.Sound.negotiates_iff {session : SshSession} (sound : session.Sound) :
    session.negotiated.isSome ↔ ∃ client server, session.clientKexinit = some client ∧
      session.serverKexinit = some server ∧
      ∃ alg ∈ client.kexAlgorithms, alg ∈ server.kexAlgorithms := by
  rw [sound.negotiated, SshSession.agreed]
  cases client : session.clientKexinit with
  | none => simp
  | some client =>
    cases server : session.serverKexinit with
    | none => simp
    | some server => simp [negotiate_eq_find?]

theorem Consistent.existsUnique {past : List SshInput} {store : SshStore}
    (consistent : Consistent past store) {a b : Endpoint} (between : AcceptedBetween past a b) :
    ∃! flow, flow ∈ store.sessions ∧ (flow = flowOf a b ∨ flow = flowOf b a) := by
  rcases consistent.covered a b between with present | present
  · refine ⟨flowOf a b, ⟨present, .inl rfl⟩, ?_⟩
    rintro flow ⟨present', rfl | rfl⟩
    · rfl
    · exact consistent.oriented (flowOf a b) present present'
  · refine ⟨flowOf b a, ⟨present, .inr rfl⟩, ?_⟩
    rintro flow ⟨present', rfl | rfl⟩
    · exact consistent.oriented (flowOf b a) present present'
    · rfl

theorem AcceptedBetween.symm {inputs : List SshInput} {a b : Endpoint}
    (between : AcceptedBetween inputs a b) : AcceptedBetween inputs b a := by
  obtain ⟨input, membership, kex, accepted⟩ := between
  exact ⟨input, membership, kex, accepted.symm⟩

theorem Consistent.acceptedBetween {past : List SshInput} {store : SshStore}
    (consistent : Consistent past store) {a b : Endpoint}
    (present : flowOf a b ∈ store.sessions) : AcceptedBetween past a b := by
  obtain ⟨c, d, same, between⟩ := consistent.named _ present
  obtain ⟨rfl, rfl⟩ := flowOf_inj.mp same
  exact between

theorem storeInvariant_of_run {inputs : List SshInput} {store : SshStore}
    (result : runSsh inputs = some store) : StoreInvariant inputs store := by
  have consistent := consistent_of_run result
  refine ⟨?_, consistent.named, consistent.oriented, ?_, ?_, ?_, consistent.capable⟩
  · refine fun a b => ⟨consistent.existsUnique, ?_⟩
    rintro ⟨flow, ⟨present, rfl | rfl⟩, -⟩
    · exact consistent.acceptedBetween present
    · exact (consistent.acceptedBetween present).symm
  · exact fun flow session found => (consistent.sound flow session found).negotiates_iff
  · exact fun flow session found => (consistent.sound flow session found).negotiated_iff
  · exact fun more store' => run_keeps consistent.sound

/-- `process_ssh` never panics, and whatever packets it sees the store it leaves is described by
the messages among them. -/
theorem runSsh_invariant (inputs : List SshInput) :
    ∃ store, runSsh inputs = some store ∧ StoreInvariant inputs store := by
  obtain ⟨store, result⟩ := exists_runSsh inputs
  exact ⟨store, result, storeInvariant_of_run result⟩

end PqcUtils.Dump

import PqcUtils.Scan.Tls

/-!
# The groups a TLS probe finds

The loop over the groups ends at the first connection that fails. If none does,
every group that was tested and accepted stands in the list of its kind, once.
So the order in which the table is visited decides nothing but the order inside
the lists, the address and the text of an error.
-/

namespace PqcUtils.Scan

/-! ## Kinds of groups -/

inductive GroupKind where
  | pqc
  | hybrid
  | nonpqc
  deriving DecidableEq, Repr

def TlsGroup.kind (group : TlsGroup) : GroupKind :=
  if group.pqc then if group.hybrid then .hybrid else .pqc else .nonpqc

/-- The two flags let the group through. -/
def TlsGroup.Tested (group : TlsGroup) (hybridAlgosOnly scanNonpqcAlgos : Bool) : Prop :=
  (hybridAlgosOnly = true → group.hybrid = true) ∧ (group.pqc = true ∨ scanNonpqcAlgos = true)

theorem mem_groupsToTest_iff {hybridAlgosOnly scanNonpqcAlgos : Bool}
    {order : List (String × TlsGroup)} {entry : String × TlsGroup} :
    entry ∈ groupsToTest hybridAlgosOnly scanNonpqcAlgos order ↔
      entry ∈ order ∧ entry.2.Tested hybridAlgosOnly scanNonpqcAlgos := by
  rw [groupsToTest, List.mem_filter, TlsGroup.Tested]
  cases hybridAlgosOnly <;> simp

namespace GroupAttempt

def ConnectionFails (attempt : GroupAttempt) : Prop := ∃ error, attempt = .error error

def accepts : GroupAttempt → Bool
  | .ok (_, .ok ()) => true
  | _ => false

end GroupAttempt

/-! ## The loop -/

namespace TlsFindings

def algos (findings : TlsFindings) : GroupKind → List String
  | .pqc => findings.pqcAlgos
  | .hybrid => findings.hybridAlgos
  | .nonpqc => findings.nonpqcAlgos

def result (findings : TlsFindings) (target : Target) : ScanResult :=
  .tls target findings.addr none findings.pqcSupported (some findings.pqcAlgos)
    (some findings.hybridAlgos) (some findings.nonpqcAlgos)

def Consistent (findings : TlsFindings) : Prop :=
  findings.pqcSupported = true ↔ findings.pqcAlgos ≠ [] ∨ findings.hybridAlgos ≠ []

theorem algos_accept (findings : TlsFindings) (groupName : String) (group : TlsGroup)
    (kind : GroupKind) :
    (findings.accept groupName group).algos kind =
      findings.algos kind ++ if group.kind = kind then [groupName] else [] := by
  unfold accept TlsGroup.kind
  cases group.pqc <;> cases group.hybrid <;> cases kind <;> simp [algos]

theorem Consistent.accept {findings : TlsFindings} (consistent : findings.Consistent)
    (groupName : String) (group : TlsGroup) : (findings.accept groupName group).Consistent := by
  unfold TlsFindings.accept
  cases group.pqc with
  | false => exact consistent
  | true => cases group.hybrid <;> simp [Consistent]

theorem Consistent.agree {findings findings' : TlsFindings} (consistent : findings.Consistent)
    (consistent' : findings'.Consistent)
    (same : ∀ kind, (findings.algos kind).Perm (findings'.algos kind)) :
    findings.pqcSupported = findings'.pqcSupported := by
  have empty (kind : GroupKind) : findings.algos kind = [] ↔ findings'.algos kind = [] := by
    rw [← List.length_eq_zero_iff, ← List.length_eq_zero_iff, (same kind).length_eq]
  have pqc : findings.pqcAlgos = [] ↔ findings'.pqcAlgos = [] := empty .pqc
  have hybrid : findings.hybridAlgos = [] ↔ findings'.hybridAlgos = [] := empty .hybrid
  have supported : findings.pqcSupported = true ↔ findings'.pqcSupported = true :=
    Iff.trans consistent ((or_congr pqc.not hybrid.not).trans (Iff.symm consistent'))
  exact Bool.eq_iff_iff.mpr supported

end TlsFindings

section Loop

variable {target : Target} {attempt : String → TlsGroup → GroupAttempt}

/-- The names of a kind that are accepted, in the order of the loop. -/
def acceptedNames (attempt : String → TlsGroup → GroupAttempt) (kind : GroupKind)
    (groups : List (String × TlsGroup)) : List String :=
  (groups.filter fun entry =>
    (attempt entry.1 entry.2).accepts && decide (entry.2.kind = kind)).map Prod.fst

theorem acceptedNames_cons (entry : String × TlsGroup) (groups : List (String × TlsGroup))
    (kind : GroupKind) :
    acceptedNames attempt kind (entry :: groups) =
      (if (attempt entry.1 entry.2).accepts = true ∧ entry.2.kind = kind then [entry.1] else []) ++
        acceptedNames attempt kind groups := by
  by_cases taken : (attempt entry.1 entry.2).accepts = true ∧ entry.2.kind = kind
  · rw [if_pos taken]
    simp [acceptedNames, taken]
  · have dropped : ((attempt entry.1 entry.2).accepts && decide (entry.2.kind = kind)) = false := by
      simpa using taken
    rw [if_neg taken]
    simp [acceptedNames, dropped]

theorem testGroups_of_failure {groups : List (String × TlsGroup)}
    (fails : ∃ entry ∈ groups, (attempt entry.1 entry.2).ConnectionFails)
    (findings : TlsFindings) :
    ∃ error, testGroups target attempt groups findings =
      .tls target none (some error) false none none none := by
  induction groups generalizing findings with
  | nil => simp at fails
  | cons entry groups ih =>
    obtain ⟨groupName, group⟩ := entry
    unfold testGroups
    cases attempted : attempt groupName group with
    | error error => exact ⟨error, rfl⟩
    | ok connected =>
      obtain ⟨addr, handshake⟩ := connected
      have later : ∃ entry ∈ groups, (attempt entry.1 entry.2).ConnectionFails := by
        obtain ⟨entry, membership, error, failed⟩ := fails
        rcases List.mem_cons.mp membership with rfl | behind
        · simp [attempted] at failed
        · exact ⟨entry, behind, error, failed⟩
      cases handshake with
      | ok => exact ih later _
      | error => exact ih later _

/-- Each turn of the loop puts an accepted name at the end of the list of its kind. -/
theorem testGroups_of_connections (target : Target) {groups : List (String × TlsGroup)}
    (connects : ∀ entry ∈ groups, ¬(attempt entry.1 entry.2).ConnectionFails)
    {findings : TlsFindings} (consistent : findings.Consistent) :
    ∃ found : TlsFindings, testGroups target attempt groups findings = found.result target ∧
      found.Consistent ∧
      ∀ kind, found.algos kind = findings.algos kind ++ acceptedNames attempt kind groups := by
  induction groups generalizing findings with
  | nil => exact ⟨findings, rfl, consistent, by simp [acceptedNames]⟩
  | cons entry groups ih =>
    obtain ⟨here, later⟩ := List.forall_mem_cons.mp connects
    obtain ⟨groupName, group⟩ := entry
    unfold testGroups
    cases attempted : attempt groupName group with
    | error error => exact absurd ⟨error, attempted⟩ here
    | ok connected =>
      obtain ⟨addr, handshake⟩ := connected
      let located : TlsFindings := { findings with addr := some (findings.addr.getD addr) }
      have locatedConsistent : located.Consistent := consistent
      have locatedAlgos (kind : GroupKind) : located.algos kind = findings.algos kind := by
        cases kind <;> rfl
      cases handshake with
      | ok =>
        have accepted : (attempt groupName group).accepts = true := by rw [attempted]; rfl
        obtain ⟨found, result, foundConsistent, algos⟩ :=
          ih later (locatedConsistent.accept groupName group)
        refine ⟨found, result, foundConsistent, fun kind => ?_⟩
        rw [algos, TlsFindings.algos_accept, locatedAlgos, acceptedNames_cons, List.append_assoc]
        simp [accepted]
      | error error =>
        have rejected : (attempt groupName group).accepts = false := by rw [attempted]; rfl
        obtain ⟨found, result, foundConsistent, algos⟩ := ih later locatedConsistent
        refine ⟨found, result, foundConsistent, fun kind => ?_⟩
        rw [algos, locatedAlgos, acceptedNames_cons]
        simp [rejected]

end Loop

/-! ## Every order of the table -/

/-- The lists hold the tested and accepted groups of the table by kind, each name once. -/
structure Partitions (table : HashMap String TlsGroup) (hybridAlgosOnly scanNonpqcAlgos : Bool)
    (attempt : String → TlsGroup → GroupAttempt) (lists : GroupKind → List String) : Prop where
  mem_iff : ∀ kind name, name ∈ lists kind ↔ ∃ group, table.lookup name = some group ∧
    group.Tested hybridAlgosOnly scanNonpqcAlgos ∧ (attempt name group).accepts = true ∧
    group.kind = kind
  once : (lists .pqc ++ lists .hybrid ++ lists .nonpqc).Nodup

theorem mem_acceptedNames_iff {attempt : String → TlsGroup → GroupAttempt} {kind : GroupKind}
    {groups : List (String × TlsGroup)} {name : String} :
    name ∈ acceptedNames attempt kind groups ↔
      ∃ group, (name, group) ∈ groups ∧ (attempt name group).accepts = true ∧
        group.kind = kind := by
  simp [acceptedNames]

theorem partitions_acceptedNames {table : HashMap String TlsGroup}
    {order : List (String × TlsGroup)} (enumerates : HashMap.Enumerates order table)
    (hybridAlgosOnly scanNonpqcAlgos : Bool) (attempt : String → TlsGroup → GroupAttempt) :
    Partitions table hybridAlgosOnly scanNonpqcAlgos attempt fun kind =>
      acceptedNames attempt kind (groupsToTest hybridAlgosOnly scanNonpqcAlgos order) := by
  have mem_iff (kind : GroupKind) (name : String) :
      name ∈ acceptedNames attempt kind (groupsToTest hybridAlgosOnly scanNonpqcAlgos order) ↔
        ∃ group, table.lookup name = some group ∧ group.Tested hybridAlgosOnly scanNonpqcAlgos ∧
          (attempt name group).accepts = true ∧ group.kind = kind := by
    simp only [mem_acceptedNames_iff, mem_groupsToTest_iff, enumerates.mem_iff, and_assoc]
  have nodup (kind : GroupKind) :
      (acceptedNames attempt kind (groupsToTest hybridAlgosOnly scanNonpqcAlgos order)).Nodup := by
    have kept : (acceptedNames attempt kind
        (groupsToTest hybridAlgosOnly scanNonpqcAlgos order)).Sublist (order.map Prod.fst) :=
      (List.filter_sublist.trans List.filter_sublist).map Prod.fst
    exact kept.nodup enumerates.nodup
  -- A name has one group in the table, and a group has one kind.
  have apart {kind kind' : GroupKind} (distinct : kind ≠ kind') :
      List.Disjoint
        (acceptedNames attempt kind (groupsToTest hybridAlgosOnly scanNonpqcAlgos order))
        (acceptedNames attempt kind' (groupsToTest hybridAlgosOnly scanNonpqcAlgos order)) := by
    intro name first second
    obtain ⟨group, found, -, -, rfl⟩ := (mem_iff kind name).mp first
    obtain ⟨group', found', -, -, rfl⟩ := (mem_iff kind' name).mp second
    cases found.symm.trans found'
    exact distinct rfl
  refine ⟨mem_iff, ?_⟩
  rw [List.nodup_append', List.nodup_append', List.disjoint_append_left]
  exact ⟨⟨nodup _, nodup _, apart (by decide)⟩, nodup _, apart (by decide), apart (by decide)⟩

/-- Two results that differ at most in the text of the error, the address and the order inside the
lists. -/
inductive SameUpToOrder (target : Target) : ScanResult → ScanResult → Prop where
  | failed (error error' : String) :
      SameUpToOrder target (.tls target none (some error) false none none none)
        (.tls target none (some error') false none none none)
  | found {found found' : TlsFindings} (supported : found.pqcSupported = found'.pqcSupported)
      (algos : ∀ kind, (found.algos kind).Perm (found'.algos kind)) :
      SameUpToOrder target (found.result target) (found'.result target)

section Scan

variable {table : HashMap String TlsGroup} {order order' : List (String × TlsGroup)}
  {target : Target} {hybridAlgosOnly scanNonpqcAlgos : Bool}
  {attempt : String → TlsGroup → GroupAttempt}

def SomeConnectionFails (table : HashMap String TlsGroup) (hybridAlgosOnly scanNonpqcAlgos : Bool)
    (attempt : String → TlsGroup → GroupAttempt) : Prop :=
  ∃ name group, table.lookup name = some group ∧ group.Tested hybridAlgosOnly scanNonpqcAlgos ∧
    (attempt name group).ConnectionFails

theorem someConnectionFails_iff (enumerates : HashMap.Enumerates order table) :
    SomeConnectionFails table hybridAlgosOnly scanNonpqcAlgos attempt ↔
      ∃ entry ∈ groupsToTest hybridAlgosOnly scanNonpqcAlgos order,
        (attempt entry.1 entry.2).ConnectionFails := by
  simp only [SomeConnectionFails, Prod.exists, mem_groupsToTest_iff, enumerates.mem_iff, and_assoc]

theorem tlsScanTarget_of_failure (enumerates : HashMap.Enumerates order table)
    (fails : SomeConnectionFails table hybridAlgosOnly scanNonpqcAlgos attempt) :
    ∃ error, tlsScanTarget order target hybridAlgosOnly scanNonpqcAlgos attempt =
      .tls target none (some error) false none none none :=
  testGroups_of_failure ((someConnectionFails_iff enumerates).mp fails) _

theorem tlsScanTarget_of_connections (enumerates : HashMap.Enumerates order table)
    (connects : ¬SomeConnectionFails table hybridAlgosOnly scanNonpqcAlgos attempt) :
    ∃ found : TlsFindings,
      tlsScanTarget order target hybridAlgosOnly scanNonpqcAlgos attempt = found.result target ∧
      found.Consistent ∧
      found.algos = fun kind =>
        acceptedNames attempt kind (groupsToTest hybridAlgosOnly scanNonpqcAlgos order) := by
  rw [someConnectionFails_iff enumerates, not_exists] at connects
  have consistent : TlsFindings.Consistent ⟨none, false, [], [], []⟩ := by
    simp [TlsFindings.Consistent]
  obtain ⟨found, result, foundConsistent, algos⟩ :=
    testGroups_of_connections target
      (fun entry membership fails => connects entry ⟨membership, fails⟩) consistent
  refine ⟨found, result, foundConsistent, funext fun kind => ?_⟩
  rw [algos kind]
  cases kind <;> rfl

theorem acceptedNames_perm (enumerates : HashMap.Enumerates order table)
    (enumerates' : HashMap.Enumerates order' table) (kind : GroupKind) :
    (acceptedNames attempt kind (groupsToTest hybridAlgosOnly scanNonpqcAlgos order)).Perm
      (acceptedNames attempt kind (groupsToTest hybridAlgosOnly scanNonpqcAlgos order')) :=
  (((enumerates.perm_of_same enumerates').filter _).filter _).map _

theorem tlsScanTarget_sameUpToOrder (enumerates : HashMap.Enumerates order table)
    (enumerates' : HashMap.Enumerates order' table) :
    SameUpToOrder target
      (tlsScanTarget order target hybridAlgosOnly scanNonpqcAlgos attempt)
      (tlsScanTarget order' target hybridAlgosOnly scanNonpqcAlgos attempt) := by
  by_cases fails : SomeConnectionFails table hybridAlgosOnly scanNonpqcAlgos attempt
  · obtain ⟨error, result⟩ := tlsScanTarget_of_failure enumerates fails
    obtain ⟨error', result'⟩ := tlsScanTarget_of_failure enumerates' fails
    rw [result, result']
    exact .failed error error'
  · obtain ⟨found, result, consistent, algos⟩ := tlsScanTarget_of_connections enumerates fails
    obtain ⟨found', result', consistent', algos'⟩ := tlsScanTarget_of_connections enumerates' fails
    have same (kind : GroupKind) : (found.algos kind).Perm (found'.algos kind) := by
      rw [algos, algos']
      exact acceptedNames_perm enumerates enumerates' kind
    rw [result, result']
    exact .found (consistent.agree consistent' same) same

/-- The result by the table alone: an error if a tested group cannot be connected with, and
otherwise the tested and accepted groups by kind. -/
theorem tlsScanTarget_partitions (table : HashMap String TlsGroup)
    (order : List (String × TlsGroup)) (enumerates : HashMap.Enumerates order table)
    (target : Target) (hybridAlgosOnly scanNonpqcAlgos : Bool)
    (attempt : String → TlsGroup → GroupAttempt) :
    (SomeConnectionFails table hybridAlgosOnly scanNonpqcAlgos attempt →
      ∃ error, tlsScanTarget order target hybridAlgosOnly scanNonpqcAlgos attempt =
        .tls target none (some error) false none none none) ∧
    (¬SomeConnectionFails table hybridAlgosOnly scanNonpqcAlgos attempt →
      ∃ found : TlsFindings,
        tlsScanTarget order target hybridAlgosOnly scanNonpqcAlgos attempt =
          .tls target found.addr none found.pqcSupported (some found.pqcAlgos)
            (some found.hybridAlgos) (some found.nonpqcAlgos) ∧
        (found.pqcSupported = true ↔ found.pqcAlgos ≠ [] ∨ found.hybridAlgos ≠ []) ∧
        Partitions table hybridAlgosOnly scanNonpqcAlgos attempt found.algos) ∧
    ∀ order', HashMap.Enumerates order' table →
      SameUpToOrder target
        (tlsScanTarget order target hybridAlgosOnly scanNonpqcAlgos attempt)
        (tlsScanTarget order' target hybridAlgosOnly scanNonpqcAlgos attempt) := by
  refine ⟨tlsScanTarget_of_failure enumerates, fun connects => ?_,
    fun order' => tlsScanTarget_sameUpToOrder enumerates⟩
  obtain ⟨found, result, consistent, algos⟩ := tlsScanTarget_of_connections enumerates connects
  refine ⟨found, result, consistent, ?_⟩
  rw [algos]
  exact partitions_acceptedNames enumerates hybridAlgosOnly scanNonpqcAlgos attempt

end Scan

/-! ## A table of two groups -/

def twoGroups : List (String × TlsGroup) :=
  [("X25519MLKEM768", ⟨0x11ec, true, true⟩), ("x25519", ⟨0x001d, false, false⟩)]

def twoGroupsTable : HashMap String TlsGroup :=
  (Finmap.insert "x25519" ⟨0x001d, false, false⟩ ∅).insert "X25519MLKEM768" ⟨0x11ec, true, true⟩

theorem enumerates_twoGroups : HashMap.Enumerates twoGroups twoGroupsTable :=
  (HashMap.enumerates_empty.insert _ _ Finmap.notMem_empty).insert _ _ (by decide)

def acceptHybrid (_groupName : String) (group : TlsGroup) : GroupAttempt :=
  .ok ("127.0.0.1:443", if group.hybrid then .ok () else .error "handshake failure")

theorem twoGroups_partition :
    Partitions twoGroupsTable false true acceptHybrid (TlsFindings.algos
      ⟨some "127.0.0.1:443", true, [], ["X25519MLKEM768"], []⟩) ∧
    SameUpToOrder ⟨"localhost", 443⟩
      (tlsScanTarget twoGroups ⟨"localhost", 443⟩ false true acceptHybrid)
      (tlsScanTarget twoGroups.reverse ⟨"localhost", 443⟩ false true acceptHybrid) := by
  obtain ⟨-, connected, orders⟩ := tlsScanTarget_partitions twoGroupsTable twoGroups
    enumerates_twoGroups ⟨"localhost", 443⟩ false true acceptHybrid
  have connects : ¬SomeConnectionFails twoGroupsTable false true acceptHybrid := by
    rintro ⟨name, group, -, -, error, failed⟩
    simp [acceptHybrid] at failed
  obtain ⟨found, result, -, partitions⟩ := connected connects
  have same : found = ⟨some "127.0.0.1:443", true, [], ["X25519MLKEM768"], []⟩ := by
    have computed : tlsScanTarget twoGroups ⟨"localhost", 443⟩ false true acceptHybrid =
        .tls ⟨"localhost", 443⟩ (some "127.0.0.1:443") none true (some [])
          (some ["X25519MLKEM768"]) (some []) := by decide
    obtain ⟨addr, supported, pqc, hybrid, nonpqc⟩ := found
    simpa using result.symm.trans computed
  rw [same] at partitions
  exact ⟨partitions, orders _ (enumerates_twoGroups.perm twoGroups.reverse_perm.symm)⟩

end PqcUtils.Scan

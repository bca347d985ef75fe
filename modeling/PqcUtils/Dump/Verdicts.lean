import PqcUtils.Dump.Report

/-!
# Verdicts on TLS hosts

A host has one key for each of its ports, but one verdict. The loop over the key
share groups writes the verdict anew at each key, so the key it visits last
decides, while the set of post-quantum hosts takes in every key.
-/

namespace PqcUtils.Dump

open Net

variable {tables : Tables}

def entriesOf (order : List (String × Finset UInt16)) (ip : String) :
    List (String × Finset UInt16) :=
  order.filter fun entry => printedIp entry.1 = some ip

@[simp] theorem mem_entriesOf {order : List (String × Finset UInt16)} {ip : String}
    {entry : String × Finset UInt16} :
    entry ∈ entriesOf order ip ↔ entry ∈ order ∧ printedIp entry.1 = some ip := by
  simp [entriesOf]

/-- The entry holds a group that the table calls post-quantum or hybrid. -/
def Tables.Pqc (tables : Tables) (entry : String × Finset UInt16) : Prop :=
  ∃ value ∈ entry.2, ∃ group, tables.groups.lookup value = some group ∧
    (group.pqc = true ∨ group.hybrid = true)

theorem groupsPqcSupported_iff {entry : String × Finset UInt16} :
    groupsPqcSupported tables.groups entry.2 = true ↔ tables.Pqc entry := by
  simp only [groupsPqcSupported, Tables.Pqc, decide_eq_true_eq, Bool.or_eq_true, or_comm]

/-- The report in the middle of the loop. -/
structure Visited (tables : Tables) (first : Report) (past : List (String × Finset UInt16))
    (report : Report) : Prop where
  verdicts : ∀ ip, report.tlsHostsPqc.lookup ip = ((entriesOf past ip).getLast?).map fun entry =>
    pqcSupport (groupsPqcSupported tables.groups entry.2)
  hosts : ∀ ip, ip ∈ report.pqcHosts ↔
    ip ∈ first.pqcHosts ∨ ∃ entry ∈ entriesOf past ip, tables.Pqc entry

theorem keyshareStep_eq_some {before after : Report} {entry : String × Finset UInt16}
    (stepped : keyshareStep tables before entry = some after) :
    ∃ ip, printedIp entry.1 = some ip ∧
      after.tlsHostsPqc =
        Finmap.insert ip (pqcSupport (groupsPqcSupported tables.groups entry.2))
          before.tlsHostsPqc ∧
      ∀ host, host ∈ after.pqcHosts ↔ host ∈ before.pqcHosts ∨ host = ip ∧ tables.Pqc entry := by
  simp only [keyshareStep, Option.bind_eq_bind, Option.bind_eq_some_iff] at stepped
  obtain ⟨ip, read, stepped⟩ := stepped
  cases stepped
  refine ⟨ip, read, rfl, fun host => ?_⟩
  rw [← groupsPqcSupported_iff]
  by_cases pqc : groupsPqcSupported tables.groups entry.2 = true
  · simp [pqc, or_comm]
  · simp [pqc]

theorem Visited.step {first before after : Report} {past : List (String × Finset UInt16)}
    {entry : String × Finset UInt16} (visited : Visited tables first past before)
    (stepped : keyshareStep tables before entry = some after) :
    Visited tables first (past ++ [entry]) after := by
  obtain ⟨ip, read, verdicts, hosts⟩ := keyshareStep_eq_some stepped
  have entries (other : String) : entriesOf (past ++ [entry]) other =
      entriesOf past other ++ if ip = other then [entry] else [] := by
    by_cases same : ip = other <;> simp [entriesOf, read, same]
  constructor
  · intro other
    rw [verdicts, HashMap.lookup_insert_eq, entries]
    by_cases same : other = ip
    · simp [same]
    · simpa [same, Ne.symm same] using visited.verdicts other
  · intro other
    rw [hosts, visited.hosts, entries, or_assoc]
    apply or_congr_right
    by_cases same : other = ip
    · simp [same, or_and_right, exists_or]
    · simp [same, Ne.symm same]

theorem visited_of_run {first last : Report} {order : List (String × Finset UInt16)}
    (fresh : first.tlsHostsPqc = ∅)
    (result : Runs.run (keyshareStep tables) first order = some last) :
    Visited tables first order last :=
  Runs.history_of_run (Visited tables first) (fun _ _ _ _ visited stepped => visited.step stepped)
    [] ⟨by simp [fresh, entriesOf], by simp [entriesOf]⟩ result

theorem exists_run_keyshareStep (tables : Tables) {order : List (String × Finset UInt16)}
    (readable : ∀ entry ∈ order, ∃ ip, printedIp entry.1 = some ip) (first : Report) :
    ∃ last, Runs.run (keyshareStep tables) first order = some last := by
  apply Runs.exists_run_of_mem
  intro entry membership before
  obtain ⟨ip, read⟩ := readable entry membership
  simp [keyshareStep, read]

/-! ## One verdict for a host -/

def HostPqc (tables : Tables) (map : HashMap String (Finset UInt16)) (ip : String) : Prop :=
  ∃ key values, map.lookup key = some values ∧ printedIp key = some ip ∧ tables.Pqc (key, values)

/-- A host is labelled as supporting post-quantum groups, and counted as such, if one of its keys
holds one. -/
structure HostVerdicts (tables : Tables) (map : HashMap String (Finset UInt16))
    (first last : Report) : Prop where
  labels : ∀ ip, last.tlsHostsPqc.lookup ip = some pqcSupportedText ↔ HostPqc tables map ip
  hosts : ∀ ip, ip ∈ last.pqcHosts ↔ ip ∈ first.pqcHosts ∨ HostPqc tables map ip

def CorrectInOrder (tables : Tables) (map : HashMap String (Finset UInt16)) (first : Report)
    (order : List (String × Finset UInt16)) : Prop :=
  ∃ last, Runs.run (keyshareStep tables) first order = some last ∧
    HostVerdicts tables map first last

/-- The entry of a host that is visited last holds a post-quantum group if any of them does. -/
def LastVisitedDecides (tables : Tables) (order : List (String × Finset UInt16)) : Prop :=
  ∀ ip last, (entriesOf order ip).getLast? = some last →
    (∃ entry ∈ entriesOf order ip, tables.Pqc entry) → tables.Pqc last

def KeysAgree (tables : Tables) (map : HashMap String (Finset UInt16)) : Prop :=
  ∀ ip key values key' values', map.lookup key = some values → map.lookup key' = some values' →
    printedIp key = some ip → printedIp key' = some ip →
    tables.Pqc (key, values) → tables.Pqc (key', values')

variable {map : HashMap String (Finset UInt16)} {first : Report}
  {order : List (String × Finset UInt16)}

theorem hostPqc_iff_entriesOf (enumerates : HashMap.Enumerates order map) (ip : String) :
    HostPqc tables map ip ↔ ∃ entry ∈ entriesOf order ip, tables.Pqc entry := by
  constructor
  · rintro ⟨key, values, found, read, pqc⟩
    exact ⟨(key, values), mem_entriesOf.mpr ⟨(enumerates.mem_iff key values).mpr found, read⟩, pqc⟩
  · rintro ⟨⟨key, values⟩, membership, pqc⟩
    obtain ⟨membership, read⟩ := mem_entriesOf.mp membership
    exact ⟨key, values, (enumerates.mem_iff key values).mp membership, read, pqc⟩

theorem correctInOrder_iff (enumerates : HashMap.Enumerates order map)
    (readable : ∀ key ∈ map, ∃ ip, printedIp key = some ip) (fresh : first.tlsHostsPqc = ∅) :
    CorrectInOrder tables map first order ↔ LastVisitedDecides tables order := by
  have readableEntries : ∀ entry ∈ order, ∃ ip, printedIp entry.1 = some ip :=
    fun entry membership => readable entry.1
      (Finmap.mem_of_lookup_eq_some ((enumerates.mem_iff entry.1 entry.2).mp membership))
  obtain ⟨last, result⟩ := exists_run_keyshareStep tables readableEntries first
  have visited := visited_of_run fresh result
  have label (ip : String) : last.tlsHostsPqc.lookup ip = some pqcSupportedText ↔
      ∃ entry, (entriesOf order ip).getLast? = some entry ∧ tables.Pqc entry := by
    simp only [visited.verdicts, Option.map_eq_some_iff, pqcSupport_eq_iff,
      groupsPqcSupported_iff]
  constructor
  · rintro ⟨last', result', correct⟩ ip entry lastEntry some
    cases result.symm.trans result'
    obtain ⟨entry', lastEntry', pqc⟩ :=
      (label ip).mp ((correct.labels ip).mpr ((hostPqc_iff_entriesOf enumerates ip).mpr some))
    rw [lastEntry, Option.some.injEq] at lastEntry'
    rwa [lastEntry']
  · intro decides
    refine ⟨last, result, fun ip => ?_, fun ip => ?_⟩
    · rw [label, hostPqc_iff_entriesOf enumerates]
      constructor
      · rintro ⟨entry, lastEntry, pqc⟩
        exact ⟨entry, List.mem_of_getLast? lastEntry, pqc⟩
      · rintro ⟨entry, membership, pqc⟩
        have nonempty : entriesOf order ip ≠ [] := List.ne_nil_of_mem membership
        have lastEntry := List.getLast?_eq_some_getLast nonempty
        exact ⟨_, lastEntry, decides ip _ lastEntry ⟨entry, membership, pqc⟩⟩
    · rw [visited.hosts, hostPqc_iff_entriesOf enumerates]

theorem correct_in_every_order_iff (readable : ∀ key ∈ map, ∃ ip, printedIp key = some ip)
    (fresh : first.tlsHostsPqc = ∅) :
    (∀ order, HashMap.Enumerates order map → CorrectInOrder tables map first order) ↔
      KeysAgree tables map := by
  constructor
  · intro correct ip key values key' values' found found' read read' pqc
    -- Visit the second entry last, whatever the order of the others.
    obtain ⟨order, enumerates⟩ := HashMap.exists_enumerates map
    have membership' := (enumerates.mem_iff key' values').mpr found'
    have same : order.Perm (order.erase (key', values') ++ [(key', values')]) :=
      (List.perm_cons_erase membership').trans (List.perm_append_singleton _ _).symm
    have moved := enumerates.perm same
    have decides := (correctInOrder_iff moved readable fresh).mp (correct _ moved)
    refine decides ip _ ?_ ⟨(key, values), ?_, pqc⟩
    · simp [entriesOf, read']
    · exact mem_entriesOf.mpr ⟨(moved.mem_iff key values).mpr found, read⟩
  · intro agree order enumerates
    rw [correctInOrder_iff enumerates readable fresh]
    rintro ip ⟨key', values'⟩ lastEntry ⟨⟨key, values⟩, membership, pqc⟩
    obtain ⟨membership, read⟩ := mem_entriesOf.mp membership
    obtain ⟨membership', read'⟩ := mem_entriesOf.mp (List.mem_of_getLast? lastEntry)
    exact agree ip key values key' values' ((enumerates.mem_iff _ _).mp membership)
      ((enumerates.mem_iff _ _).mp membership') read read' pqc

/-- In one order the verdicts are right exactly when the last key of each host decides, and they
are right in every order exactly when no host has keys that disagree. -/
theorem hostVerdicts_iff (readable : ∀ key ∈ map, ∃ ip, printedIp key = some ip)
    (fresh : first.tlsHostsPqc = ∅) :
    (∀ order, HashMap.Enumerates order map →
      (CorrectInOrder tables map first order ↔ LastVisitedDecides tables order)) ∧
    ((∀ order, HashMap.Enumerates order map → CorrectInOrder tables map first order) ↔
      KeysAgree tables map) :=
  ⟨fun _ enumerates => correctInOrder_iff enumerates readable fresh,
    correct_in_every_order_iff readable fresh⟩

/-! ## Two ports of one host -/

def twoGroups : Tables where
  kexAlgos := ∅
  groups := Finmap.insert 0x11ec ⟨"X25519MLKEM768", true, true, "", ""⟩
    (Finmap.insert 0x001d ⟨"x25519", false, false, "", ""⟩ ∅)
  cipherSuites := ∅

/-- One port of the host offered the hybrid group, the other one did not. -/
def twoPorts (offered : UInt16) : HashMap String (Finset UInt16) :=
  Finmap.insert "10.0.0.1:50000" {0x11ec} (Finmap.insert "10.0.0.1:50001" {offered} ∅)

theorem twoPorts_enumerates (offered : UInt16) :
    HashMap.Enumerates [("10.0.0.1:50000", {0x11ec}), ("10.0.0.1:50001", {offered})]
      (twoPorts offered) :=
  (HashMap.enumerates_empty.insert _ _ Finmap.notMem_empty).insert _ _ (by
    simp [Finmap.notMem_empty])

/-- Visited in this order, the host is counted as post-quantum and labelled as not supporting it. -/
theorem verdict_overwritten :
    HashMap.Enumerates [("10.0.0.1:50000", {0x11ec}), ("10.0.0.1:50001", {0x001d})]
      (twoPorts 0x001d) ∧
    ∃ last, Runs.run (keyshareStep twoGroups) .empty
        [("10.0.0.1:50000", {0x11ec}), ("10.0.0.1:50001", {0x001d})] = some last ∧
      HostPqc twoGroups (twoPorts 0x001d) "10.0.0.1" ∧ "10.0.0.1" ∈ last.pqcHosts ∧
      last.tlsHostsPqc.lookup "10.0.0.1" = some "No Support" ∧
      ¬HostVerdicts twoGroups (twoPorts 0x001d) .empty last := by
  have outcome : (Runs.run (keyshareStep twoGroups) .empty
      [("10.0.0.1:50000", {0x11ec}), ("10.0.0.1:50001", {0x001d})]).map
      (fun last => decide ("10.0.0.1" ∈ last.pqcHosts ∧
        last.tlsHostsPqc.lookup "10.0.0.1" = some "No Support")) = some true := by
    decide +kernel
  obtain ⟨last, result, verdict⟩ := Option.map_eq_some_iff.mp outcome
  obtain ⟨counted, label⟩ := of_decide_eq_true verdict
  have pqc : HostPqc twoGroups (twoPorts 0x001d) "10.0.0.1" :=
    ⟨"10.0.0.1:50000", {0x11ec}, by decide +kernel, by decide +kernel,
      0x11ec, by decide, _, rfl, .inl rfl⟩
  refine ⟨twoPorts_enumerates _, last, result, pqc, counted, label, fun verdicts => ?_⟩
  have supported := (verdicts.labels "10.0.0.1").mpr pqc
  rw [label] at supported
  exact absurd supported (by decide)

theorem verdict_of_agreeing_ports :
    CorrectInOrder twoGroups (twoPorts 0x11ec) .empty
      [("10.0.0.1:50000", {0x11ec}), ("10.0.0.1:50001", {0x11ec})] := by
  have entries (key : String) (values : Finset UInt16)
      (found : (twoPorts 0x11ec).lookup key = some values) :
      (key, values) ∈ [("10.0.0.1:50000", ({0x11ec} : Finset UInt16)),
        ("10.0.0.1:50001", {0x11ec})] :=
    ((twoPorts_enumerates 0x11ec).mem_iff key values).mpr found
  refine (hostVerdicts_iff ?_ rfl).2.mpr ?_ _ (twoPorts_enumerates 0x11ec)
  · intro key present
    obtain ⟨values, found⟩ := Finmap.mem_iff.mp present
    have membership := entries key values found
    simp only [List.mem_cons, Prod.mk.injEq, List.not_mem_nil, or_false] at membership
    rcases membership with ⟨rfl, -⟩ | ⟨rfl, -⟩ <;> exact ⟨"10.0.0.1", by decide +kernel⟩
  · intro ip key values key' values' found found' read read' _
    have membership := entries key' values' found'
    simp only [List.mem_cons, Prod.mk.injEq, List.not_mem_nil, or_false] at membership
    rcases membership with ⟨-, rfl⟩ | ⟨-, rfl⟩ <;>
      exact ⟨0x11ec, Finset.mem_singleton_self _, _, rfl, .inl rfl⟩

end PqcUtils.Dump

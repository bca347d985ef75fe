import PqcUtils.Library.HashMap

/-!
# Filing under another key

A loop over a map that files each entry under a key computed from it. Of the entries
with one new key the loop keeps the one it visits last. So its result depends on the
order of the visit, unless no two entries are filed under one key.
-/

namespace PqcUtils.HashMap

universe u v w x

variable {Key : Type u} {Value : Type v} {Index : Type w} {Item : Type x} [DecidableEq Key]
  [DecidableEq Index] (index : Key → Value → Index) (item : Key → Value → Item)

/-- `for (key, value) in map { filed.insert(index, item); }`. -/
def refile (order : List (Key × Value)) : HashMap Index Item :=
  order.foldl (fun filed entry =>
    Finmap.insert (index entry.1 entry.2) (item entry.1 entry.2) filed) ∅

/-- No two entries are filed under one key. -/
def Apart (map : HashMap Key Value) : Prop :=
  ∀ key value key' value', map.lookup key = some value → map.lookup key' = some value' →
    index key value = index key' value' → key = key'

variable {index item}

omit [DecidableEq Key] in
theorem lookup_refile_append (order : List (Key × Value)) (entry : Key × Value) (new : Index) :
    (refile index item (order ++ [entry])).lookup new =
      if new = index entry.1 entry.2 then some (item entry.1 entry.2)
      else (refile index item order).lookup new := by
  rw [refile, List.foldl_append, List.foldl_cons, List.foldl_nil, lookup_insert_eq, refile]

omit [DecidableEq Key] in
theorem exists_of_lookup_refile {order : List (Key × Value)} {new : Index} {found : Item}
    (filed : (refile index item order).lookup new = some found) :
    ∃ entry ∈ order, index entry.1 entry.2 = new ∧ item entry.1 entry.2 = found := by
  induction order using List.reverseRecOn with
  | nil => simp [refile] at filed
  | append_singleton order entry ih =>
    rw [lookup_refile_append] at filed
    split at filed
    · next here => exact ⟨entry, by simp, here.symm, Option.some.inj filed⟩
    · obtain ⟨other, among, at_, is⟩ := ih filed
      exact ⟨other, by simp [among], at_, is⟩

omit [DecidableEq Key] in
theorem mem_refile_of_mem {order : List (Key × Value)} {entry : Key × Value}
    (among : entry ∈ order) : index entry.1 entry.2 ∈ refile index item order := by
  induction order using List.reverseRecOn with
  | nil => cases among
  | append_singleton order last ih =>
    rw [Finmap.mem_iff, ← Option.isSome_iff_exists, lookup_refile_append]
    split
    · rfl
    · next elsewhere =>
      rcases List.mem_append.mp among with earlier | here
      · exact Option.isSome_iff_exists.mpr (Finmap.mem_iff.mp (ih earlier))
      · rw [List.mem_singleton] at here
        exact absurd (by rw [here]) elsewhere

section Visits

variable {map : HashMap Key Value} {order : List (Key × Value)}

theorem lookup_refile_of_visit (visits : Enumerates order map) {new : Index} {found : Item}
    (filed : (refile index item order).lookup new = some found) :
    ∃ key value, map.lookup key = some value ∧ index key value = new ∧ item key value = found := by
  obtain ⟨⟨key, value⟩, among, here⟩ := exists_of_lookup_refile filed
  exact ⟨key, value, (visits.mem_iff key value).mp among, here⟩

theorem lookup_refile_of_apart (item : Key → Value → Item) (visits : Enumerates order map)
    (apart : Apart index map) {key : Key} {value : Value} (found : map.lookup key = some value) :
    (refile index item order).lookup (index key value) = some (item key value) := by
  have filed : index key value ∈ refile index item order :=
    mem_refile_of_mem ((visits.mem_iff key value).mpr found)
  obtain ⟨other, lookup⟩ := Finmap.mem_iff.mp filed
  obtain ⟨key', value', found', same, rfl⟩ := lookup_refile_of_visit visits lookup
  obtain rfl := apart key' value' key value found' found same
  rw [found, Option.some.injEq] at found'
  rw [lookup, found']

theorem exists_visit_last (map : HashMap Key Value) {key : Key} {value : Value}
    (found : map.lookup key = some value) :
    ∃ earlier, Enumerates (earlier ++ [(key, value)]) map := by
  classical
  obtain ⟨order, enumerates⟩ := exists_enumerates map
  have among := (enumerates.mem_iff key value).mpr found
  exact ⟨order.erase (key, value), enumerates.perm
    ((List.perm_cons_erase among).trans (List.perm_append_singleton _ _).symm)⟩

/-- Where items tell their keys, the order is not seen exactly if the keys are apart. -/
theorem refile_same_iff (map : HashMap Key Value)
    (tells : ∀ key value key' value', item key value = item key' value' → key = key') :
    (∀ order order', Enumerates order map → Enumerates order' map →
      refile index item order = refile index item order') ↔ Apart index map := by
  constructor
  · intro same key value key' value' found found' filed
    obtain ⟨earlier, visits⟩ := exists_visit_last map found
    obtain ⟨earlier', visits'⟩ := exists_visit_last map found'
    have lookup := congrArg (fun filed => filed.lookup (index key value))
      (same _ _ visits visits')
    simp only [lookup_refile_append, if_pos, if_pos filed, Option.some.injEq] at lookup
    exact tells _ _ _ _ lookup
  · intro apart order order' visits visits'
    have includes {order order' : List (Key × Value)} (visits : Enumerates order map)
        (visits' : Enumerates order' map) {new : Index} {found : Item}
        (filed : (refile index item order).lookup new = some found) :
        (refile index item order').lookup new = some found := by
      obtain ⟨key, value, known, rfl, rfl⟩ := lookup_refile_of_visit visits filed
      exact lookup_refile_of_apart item visits' apart known
    apply Finmap.ext_lookup
    intro new
    apply Option.ext
    exact fun found => ⟨includes visits visits', includes visits' visits⟩

end Visits

end PqcUtils.HashMap

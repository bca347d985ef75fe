import Mathlib.Data.Finmap
import Mathlib.Data.Finset.Sort

/-!
# Hash maps

A hash map is a finite map without an order on its entries. A loop over it
visits the entries in some order; results about such loops are stated for every
list that enumerates the map.
-/

namespace PqcUtils

universe u v w

/-- A map from keys to values, equal to another when all lookups agree. -/
abbrev HashMap (Key : Type u) (Value : Type v) := Finmap fun _ : Key => Value

namespace HashMap

variable {Key : Type u} {Value : Type v} [DecidableEq Key]

/-- `map.entry(key).or_insert(default)` followed by an update in place. -/
def update (map : HashMap Key Value) (key : Key) (default : Value) (change : Value → Value) :
    HashMap Key Value :=
  map.insert key (change ((map.lookup key).getD default))

@[simp] theorem lookup_update_self (map : HashMap Key Value) (key : Key) (default : Value)
    (change : Value → Value) :
    (map.update key default change).lookup key = some (change ((map.lookup key).getD default)) :=
  Finmap.lookup_insert map

theorem lookup_update_of_ne (map : HashMap Key Value) {key other : Key} (default : Value)
    (change : Value → Value) (distinct : other ≠ key) :
    (map.update key default change).lookup other = map.lookup other :=
  Finmap.lookup_insert_of_ne map distinct

theorem lookup_insert_eq (map : HashMap Key Value) (key other : Key) (value : Value) :
    (Finmap.insert key value map).lookup other =
      if other = key then some value else map.lookup other := by
  split
  · next same => rw [same, Finmap.lookup_insert]
  · next distinct => exact Finmap.lookup_insert_of_ne map distinct

theorem lookup_insert_eq_some_iff {map : HashMap Key Value} {key other : Key}
    {value found : Value} :
    (Finmap.insert key value map).lookup other = some found ↔
      other = key ∧ value = found ∨ other ≠ key ∧ map.lookup other = some found := by
  rw [lookup_insert_eq]
  by_cases same : other = key <;> simp [same]

@[simp] theorem mem_update {map : HashMap Key Value} {key other : Key} {default : Value}
    {change : Value → Value} : other ∈ map.update key default change ↔ other = key ∨ other ∈ map :=
  Finmap.mem_insert

theorem insert_comm (map : HashMap Key Value) {key key' : Key} (distinct : key ≠ key')
    (value value' : Value) :
    Finmap.insert key' value' (Finmap.insert key value map) =
      Finmap.insert key value (Finmap.insert key' value' map) :=
  Finmap.insert_insert_of_ne map distinct

theorem update_comm (map : HashMap Key Value) {key key' : Key} (default : Value)
    {change change' : Value → Value}
    (commutes : key = key' → ∀ value, change (change' value) = change' (change value)) :
    (map.update key default change).update key' default change' =
      (map.update key' default change').update key default change := by
  apply Finmap.ext_lookup
  intro other
  by_cases same : key = key'
  · subst same
    by_cases here : other = key
    · rw [here]
      simp only [lookup_update_self, Option.getD_some, commutes rfl]
    · simp only [lookup_update_of_ne _ _ _ here]
  · by_cases here : other = key
    · rw [here, lookup_update_of_ne _ _ _ same, lookup_update_self, lookup_update_self,
        lookup_update_of_ne _ _ _ same]
    · rw [lookup_update_of_ne (map.update key' default change') _ _ here]
      by_cases there : other = key'
      · rw [there, lookup_update_self, lookup_update_self, lookup_update_of_ne _ _ _ (Ne.symm same)]
      · rw [lookup_update_of_ne _ _ _ there, lookup_update_of_ne _ _ _ there,
          lookup_update_of_ne _ _ _ here]

/-- The list holds every entry of the map once. -/
structure Enumerates (order : List (Key × Value)) (map : HashMap Key Value) : Prop where
  nodup : (order.map Prod.fst).Nodup
  mem_iff : ∀ key value, (key, value) ∈ order ↔ map.lookup key = some value

omit [DecidableEq Key] in
theorem Enumerates.perm [DecidableEq Key] {order order' : List (Key × Value)}
    {map : HashMap Key Value} (enumerates : Enumerates order map) (same : order.Perm order') :
    Enumerates order' map where
  nodup := (same.map Prod.fst).nodup_iff.mp enumerates.nodup
  mem_iff key value := by rw [← same.mem_iff, enumerates.mem_iff]

omit [DecidableEq Key] in
theorem Enumerates.perm_of_same [DecidableEq Key] {order order' : List (Key × Value)}
    {map : HashMap Key Value} (enumerates : Enumerates order map)
    (enumerates' : Enumerates order' map) : order.Perm order' := by
  apply (List.perm_ext_iff_of_nodup enumerates.nodup.of_map enumerates'.nodup.of_map).mpr
  rintro ⟨key, value⟩
  rw [enumerates.mem_iff, enumerates'.mem_iff]

omit [DecidableEq Key] in
theorem exists_nodup_pairs (entries : List (Sigma fun _ : Key => Value))
    (nodup : entries.NodupKeys) :
    ((entries.map fun entry => (entry.1, entry.2)).map Prod.fst).Nodup := by
  simpa [List.NodupKeys, List.keys, Function.comp_def] using nodup

omit [DecidableEq Key] in
theorem enumerates_empty [DecidableEq Key] : Enumerates [] (∅ : HashMap Key Value) :=
  ⟨by simp, by simp⟩

omit [DecidableEq Key] in
theorem Enumerates.insert [DecidableEq Key] {order : List (Key × Value)} {map : HashMap Key Value}
    (enumerates : Enumerates order map) (key : Key) (value : Value) (absent : key ∉ map) :
    Enumerates ((key, value) :: order) (Finmap.insert key value map) where
  nodup := by
    have fresh : key ∉ order.map Prod.fst := by
      intro membership
      obtain ⟨⟨key', value'⟩, among, rfl⟩ := List.mem_map.mp membership
      exact absent (Finmap.mem_of_lookup_eq_some ((enumerates.mem_iff _ _).mp among))
    exact List.nodup_cons.mpr ⟨fresh, enumerates.nodup⟩
  mem_iff other value' := by
    rw [List.mem_cons, Prod.mk.injEq, enumerates.mem_iff, lookup_insert_eq]
    by_cases same : other = key
    · subst same
      simp [Finmap.lookup_eq_none.mpr absent, eq_comm]
    · simp [same]

theorem Enumerates.exists_iff {order : List (Key × Value)} {map : HashMap Key Value}
    (enumerates : Enumerates order map) (P : Key × Value → Prop) :
    (∃ entry ∈ order, P entry) ↔ ∃ key value, map.lookup key = some value ∧ P (key, value) := by
  simp only [Prod.exists, enumerates.mem_iff]

theorem Enumerates.exists_key_iff {order : List (Key × Value)} {map : HashMap Key Value}
    (enumerates : Enumerates order map) (P : Key → Prop) :
    (∃ entry ∈ order, P entry.1) ↔ ∃ key ∈ map, P key := by
  simp only [enumerates.exists_iff fun entry => P entry.1, Finmap.mem_iff, exists_and_right]

theorem Enumerates.length_eq {order : List (Key × Value)} {map : HashMap Key Value}
    (enumerates : Enumerates order map) : order.length = map.keys.card := by
  have keys : (order.map Prod.fst).toFinset = map.keys := by
    ext key
    simp only [List.mem_toFinset, List.mem_map, enumerates.exists_key_iff fun other => other = key,
      Finmap.mem_keys, exists_eq_right]
  rw [← keys, List.toFinset_card_of_nodup enumerates.nodup, List.length_map]

theorem exists_enumerates (map : HashMap Key Value) : ∃ order, Enumerates order map := by
  induction map using Finmap.induction_on with
  | H entries =>
    refine ⟨entries.entries.map fun entry => (entry.1, entry.2),
      exists_nodup_pairs _ entries.nodupKeys, ?_⟩
    intro key value
    rw [Finmap.lookup_toFinmap, AList.lookup, ← Option.mem_def,
      List.mem_dlookup_iff entries.nodupKeys, List.mem_map]
    constructor
    · rintro ⟨⟨key', value'⟩, membership, same⟩
      simp only [Prod.mk.injEq] at same
      rwa [← same.1, ← same.2]
    · exact fun membership => ⟨⟨key, value⟩, membership, rfl⟩

omit [DecidableEq Key] in
theorem Enumerates.unique [DecidableEq Key] {order : List (Key × Value)}
    {map map' : HashMap Key Value} (enumerates : Enumerates order map)
    (enumerates' : Enumerates order map') : map = map' := by
  apply Finmap.ext_lookup
  intro key
  apply Option.ext
  intro value
  rw [← enumerates.mem_iff, ← enumerates'.mem_iff]

omit [DecidableEq Key] in
theorem nodupKeys_map {Value' : Type w} (change : Value → Value') (map : HashMap Key Value) :
    (map.entries.map fun entry => (⟨entry.1, change entry.2⟩ : (_ : Key) × Value')).NodupKeys := by
  rw [← Multiset.nodup_keys, Multiset.keys, Multiset.map_map]
  exact map.nodupKeys.nodup_keys

def mapValues {Value' : Type w} (change : Value → Value') (map : HashMap Key Value) :
    HashMap Key Value' :=
  ⟨map.entries.map fun entry => ⟨entry.1, change entry.2⟩, nodupKeys_map change map⟩

@[simp] theorem lookup_mapValues {Value' : Type w} (change : Value → Value')
    (map : HashMap Key Value) (key : Key) :
    (map.mapValues change).lookup key = (map.lookup key).map change := by
  apply Option.ext
  intro value
  rw [Option.map_eq_some_iff]
  simp only [Finmap.lookup_eq_some_iff, mapValues, Multiset.mem_map]
  constructor
  · rintro ⟨⟨key, value⟩, among, same⟩
    cases same
    exact ⟨value, among, rfl⟩
  · rintro ⟨value, among, rfl⟩
    exact ⟨⟨key, value⟩, among, rfl⟩

omit [DecidableEq Key] in
theorem Enumerates.mapValues [DecidableEq Key] {Value' : Type w} {order : List (Key × Value)}
    {map : HashMap Key Value} (enumerates : Enumerates order map) (change : Value → Value') :
    Enumerates (order.map fun entry => (entry.1, change entry.2)) (map.mapValues change) where
  nodup := by simpa [Function.comp_def] using enumerates.nodup
  mem_iff key value := by
    simp only [List.mem_map, Prod.exists, enumerates.mem_iff, Prod.mk.injEq, lookup_mapValues,
      Option.map_eq_some_iff]
    constructor
    · rintro ⟨key, value, found, rfl, rfl⟩
      exact ⟨value, found, rfl⟩
    · rintro ⟨value, found, rfl⟩
      exact ⟨key, value, found, rfl, rfl⟩

end HashMap

end PqcUtils

import PqcUtils.Dump.Tables
import PqcUtils.Scan.Tables

/-!
# The tables of both programs

Both programs decode the same files. The scanner keeps the entries under their names,
the dump tool files them under their numbers. What it shows under a number is an entry
of the scanner, and it has every entry exactly if no two of them share a number.
-/

namespace PqcUtils.Agreement

open HashMap

/-! ## Filing what was decoded -/

section Filing

variable {Decoded Entry Shown : Type} (id : Entry → UInt16) (Shows : String → Entry → Shown → Prop)
  (table : HashMap String Entry)

def DistinctIds : Prop := Apart (fun _ entry => id entry) table

def ShowsOnly (byId : HashMap UInt16 Shown) : Prop :=
  ∀ number shown, byId.lookup number = some shown →
    ∃ name entry, table.lookup name = some entry ∧ id entry = number ∧ Shows name entry shown

def ShowsAll (byId : HashMap UInt16 Shown) : Prop :=
  ∀ name entry, table.lookup name = some entry →
    ∃ shown, byId.lookup (id entry) = some shown ∧ Shows name entry shown

variable {id Shows table} {entries : HashMap String Decoded} {keep : Decoded → Entry}

theorem apart_iff_distinctIds :
    Apart (fun _ decoded => id (keep decoded)) entries ↔ DistinctIds id (entries.mapValues keep) := by
  simp only [DistinctIds, Apart, lookup_mapValues, Option.map_eq_some_iff]
  constructor
  · rintro apart name _ name' _ ⟨decoded, found, rfl⟩ ⟨decoded', found', rfl⟩
    exact apart name decoded name' decoded' found found'
  · intro apart name decoded name' decoded' found found'
    exact apart name _ name' _ ⟨decoded, found, rfl⟩ ⟨decoded', found', rfl⟩

section Visit

variable {item : String → Decoded → Shown} {order : List (String × Decoded)}
  (visits : Enumerates order entries)
  (shows : ∀ name decoded, Shows name (keep decoded) (item name decoded))

include visits shows

theorem showsOnly_refile : ShowsOnly id Shows (entries.mapValues keep)
    (refile (fun _ decoded => id (keep decoded)) item order) := by
  intro number shown filed
  obtain ⟨name, decoded, found, rfl, rfl⟩ := lookup_refile_of_visit visits filed
  exact ⟨name, keep decoded, by rw [lookup_mapValues, found, Option.map_some], rfl,
    shows name decoded⟩

theorem showsAll_refile (distinct : DistinctIds id (entries.mapValues keep)) :
    ShowsAll id Shows (entries.mapValues keep)
      (refile (fun _ decoded => id (keep decoded)) item order) := by
  intro name entry known
  rw [lookup_mapValues, Option.map_eq_some_iff] at known
  obtain ⟨decoded, found, rfl⟩ := known
  exact ⟨item name decoded,
    lookup_refile_of_apart item visits (apart_iff_distinctIds.mpr distinct) found,
    shows name decoded⟩

end Visit

/-- Where a shown entry tells its name, all entries are there only if the numbers are distinct. -/
theorem distinctIds_of_showsAll {byId : HashMap UInt16 Shown} (all : ShowsAll id Shows table byId)
    (tells : ∀ name entry name' entry' shown, Shows name entry shown → Shows name' entry' shown →
      name = name') : DistinctIds id table := by
  intro name entry name' entry' known known' number
  obtain ⟨shown, found, shows⟩ := all name entry known
  obtain ⟨shown', found', shows'⟩ := all name' entry' known'
  simp only at number
  rw [number, found', Option.some.injEq] at found
  rw [found] at shows'
  exact tells name entry name' entry' shown shows shows'

end Filing

/-! ## Groups -/

/-- The dump tool has the group under its name. -/
def ShowsGroup (name : String) (group : Scan.TlsGroup) (shown : Dump.TlsGroup) : Prop :=
  shown.name = name ∧ shown.pqc = group.pqc ∧ shown.hybrid = group.hybrid

section Groups

variable {groups : HashMap String GroupEntry} {order : List (String × GroupEntry)}

theorem showsOnlyGroups (visits : Enumerates order groups) :
    ShowsOnly Scan.TlsGroup.groupId ShowsGroup (Scan.loadGroups groups) (Dump.loadGroups order) :=
  showsOnly_refile visits fun _ _ => ⟨rfl, rfl, rfl⟩

theorem showsAllGroups (visits : Enumerates order groups)
    (distinct : DistinctIds Scan.TlsGroup.groupId (Scan.loadGroups groups)) :
    ShowsAll Scan.TlsGroup.groupId ShowsGroup (Scan.loadGroups groups) (Dump.loadGroups order) :=
  showsAll_refile visits (fun _ _ => ⟨rfl, rfl, rfl⟩) distinct

/-- Of the same groups, the dump tool has groups of the scanner under their numbers, and all of
them, and the same ones whatever the order of its loop, exactly if no two share a number. -/
theorem loadGroups_agree (groups : HashMap String GroupEntry) :
    (∀ order, Enumerates order groups →
      ShowsOnly Scan.TlsGroup.groupId ShowsGroup (Scan.loadGroups groups) (Dump.loadGroups order) ∧
      (ShowsAll Scan.TlsGroup.groupId ShowsGroup (Scan.loadGroups groups) (Dump.loadGroups order) ↔
        DistinctIds Scan.TlsGroup.groupId (Scan.loadGroups groups))) ∧
    ((∀ order order', Enumerates order groups → Enumerates order' groups →
      Dump.loadGroups order = Dump.loadGroups order') ↔
        DistinctIds Scan.TlsGroup.groupId (Scan.loadGroups groups)) := by
  refine ⟨fun order visits => ⟨showsOnlyGroups visits, fun all => ?_, showsAllGroups visits⟩, ?_⟩
  · refine distinctIds_of_showsAll all ?_
    exact fun name group name' group' shown shows shows' => shows.1.symm.trans shows'.1
  · have tells (name : String) (entry : GroupEntry) (name' : String) (entry' : GroupEntry)
        (same : (⟨name, entry.pqc, entry.hybrid, entry.desc, entry.href⟩ : Dump.TlsGroup) =
          ⟨name', entry'.pqc, entry'.hybrid, entry'.desc, entry'.href⟩) : name = name' :=
      congrArg Dump.TlsGroup.name same
    have distinct : DistinctIds Scan.TlsGroup.groupId (Scan.loadGroups groups) ↔ _ :=
      apart_iff_distinctIds.symm
    exact (refile_same_iff groups tells).trans distinct.symm

end Groups

/-! ## Cipher suites -/

end PqcUtils.Agreement

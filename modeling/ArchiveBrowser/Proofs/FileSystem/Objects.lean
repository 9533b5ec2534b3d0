import ArchiveBrowser.FileSystem.Basic
import Mathlib.Data.List.Nodup

/-!
# What a file system holds, and the names in a directory

Since no place holds two objects, looking a place up and finding it among the objects are the
same, and a directory lists the name of each entry once.
-/

set_option autoImplicit false

namespace ArchiveBrowser

/-- Where keys are distinct, a key is found with every value that it is paired with. -/
theorem lookup_eq_some_iff_mem {κ α : Type} [BEq κ] [LawfulBEq κ] {entries : List (κ × α)}
    (distinct : (entries.map Prod.fst).Nodup) (key : κ) (value : α) :
    entries.lookup key = some value ↔ (key, value) ∈ entries := by
  rw [List.lookup_eq_some_iff]
  constructor
  · intro found
    obtain ⟨before, after, split, -⟩ := found
    rw [split]
    simp
  · intro member
    obtain ⟨before, after, split⟩ := List.append_of_mem member
    refine ⟨before, after, split, ?_⟩
    intro entry inside
    rw [split, List.map_append, List.nodup_append] at distinct
    have apart := distinct.2.2 entry.1 (List.mem_map_of_mem inside) key (by simp)
    simpa using Ne.symm apart

namespace FileSystem

theorem access_at_eq_some {system : FileSystem} {place : Location} {access : Access} :
    system.accessAt? place = some access ↔
      system.objectAt? place = some (.directoryWith access) := by
  unfold accessAt?
  split <;> simp_all

theorem object_at_snoc (system : FileSystem) (directory : Location) (name : FileName)
    (object : Object) :
    system.objectAt? (directory ++ [name]) = some object ↔
      (directory ++ [name], object) ∈ system.objects := by
  rw [objectAt?, if_neg (by simp), lookup_eq_some_iff_mem system.distinct]

theorem name_in_eq_some {directory place : Location} {name : FileName} :
    nameIn? directory place = some name ↔ place = directory ++ [name] := by
  induction directory generalizing place with
  | nil =>
      rcases place with _ | ⟨first, _ | ⟨second, rest⟩⟩ <;> simp [nameIn?]
  | cons step directory ih =>
      cases place with
      | nil => simp [nameIn?]
      | cons first rest =>
          rw [nameIn?, List.cons_append, List.cons.injEq]
          by_cases same : step = first
          · rw [if_pos same, ih]
            simp [same]
          · rw [if_neg same]
            simp [Ne.symm same]

theorem mem_names_in (system : FileSystem) (directory : Location) (name : FileName) :
    name ∈ system.namesIn directory ↔ (system.objectAt? (directory ++ [name])).isSome = true := by
  rw [namesIn, List.mem_filterMap, Option.isSome_iff_exists]
  constructor
  · intro listed
    obtain ⟨⟨place, object⟩, member, named⟩ := listed
    cases name_in_eq_some.mp named
    exact ⟨object, (object_at_snoc system directory name object).mpr member⟩
  · intro held
    obtain ⟨object, held⟩ := held
    exact ⟨_, (object_at_snoc system directory name object).mp held, name_in_eq_some.mpr rfl⟩

theorem nodup_names_in (system : FileSystem) (directory : Location) :
    (system.namesIn directory).Nodup := by
  have places : system.namesIn directory =
      (system.objects.map Prod.fst).filterMap (nameIn? directory) := by
    rw [List.filterMap_map]
    rfl
  rw [places]
  refine system.distinct.filterMap ?_
  intro place other name here there
  rw [name_in_eq_some.mp here, name_in_eq_some.mp there]

end FileSystem

end ArchiveBrowser

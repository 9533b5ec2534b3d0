import ArchiveBrowser.Proofs.FileSystem.Objects
import ArchiveBrowser.Proofs.FileSystem.Walk
import Mathlib.Data.List.Induction

/-!
# File systems in which everything is in a directory

Where whatever there is can be reached through directories, resolving a path never ends on a
symbolic link: links are followed, and the way up leads to directories.
-/

set_option autoImplicit false

namespace ArchiveBrowser.FileSystem

/-- Whatever there is is in a directory. -/
def Connected (system : FileSystem) : Prop :=
  ∀ place name, (system.objectAt? (place ++ [name])).isSome = true →
    (system.accessAt? place).isSome = true

/-- What is at the place is no link; there may be nothing. -/
def NoLinkAt (system : FileSystem) (place : Location) : Prop :=
  ∀ target, system.objectAt? place ≠ some (.linkTo target)

variable {system : FileSystem} {place : Location}

theorem connected_of_objects (held : ∀ entry ∈ system.objects,
    (system.accessAt? entry.1.dropLast).isSome = true) : system.Connected := by
  intro place name there
  obtain ⟨object, found⟩ := Option.isSome_iff_exists.mp there
  have above := held _ ((object_at_snoc system place name object).mp found)
  rwa [List.dropLast_concat] at above

theorem Connected.above (connected : system.Connected)
    (there : (system.objectAt? place).isSome = true) :
    (system.accessAt? place.dropLast).isSome = true := by
  induction place using List.reverseRecOn with
  | nil => rfl
  | append_singleton before name =>
      rw [List.dropLast_concat]
      exact connected before name there

theorem no_link_of_directory (directory : (system.accessAt? place).isSome = true) :
    system.NoLinkAt place := by
  obtain ⟨access, held⟩ := Option.isSome_iff_exists.mp directory
  intro target
  rw [access_at_eq_some.mp held]
  exact nofun

theorem directory_of_no_hindrance {piece : Bytes} (clear : system.hindrance place piece = none) :
    (system.accessAt? place).isSome = true := by
  rw [Option.isSome_iff_ne_none]
  intro nowhere
  rw [hindrance_of_nowhere piece nowhere] at clear
  cases clear

theorem walk_ends_on_no_link (connected : system.Connected) {links : Nat} {here : Location}
    {pieces : List Bytes} (noLink : system.NoLinkAt here)
    (leads : system.walk links here pieces = .ok place) : system.NoLinkAt place := by
  fun_induction walk system links here pieces with
  | case1 links here =>
      cases leads
      exact noLink
  | case2 | case5 | case6 | case7 | case8 => cases leads
  | case3 links here piece rest clear inPlace ih => exact ih noLink leads
  | case4 links here rest clear upwards ih =>
      obtain ⟨access, held⟩ := Option.isSome_iff_exists.mp (directory_of_no_hindrance clear)
      have there : (system.objectAt? here).isSome = true := by
        rw [access_at_eq_some.mp held]
        rfl
      exact ih (no_link_of_directory (connected.above there)) leads
  | case9 here piece rest clear noStep downwards name read target links held ih =>
      apply ih _ leads
      unfold startOf
      split
      · exact no_link_of_directory rfl
      · exact noLink
  | case10 here piece rest clear noStep downwards name read object links noBar exhausted noTarget
      held ih =>
      apply ih _ leads
      intro target link
      rw [held] at link
      cases links with
      | zero => exact exhausted target rfl (Option.some.inj link)
      | succ left => exact noTarget target left rfl (Option.some.inj link)

theorem directory_of_walk_cons {links : Nat} {here : Location} {piece : Bytes}
    {rest : List Bytes} (leads : system.walk links here (piece :: rest) = .ok place) :
    (system.accessAt? here).isSome = true := by
  cases hindered : system.hindrance here piece with
  | none => exact directory_of_no_hindrance hindered
  | some error =>
      rw [walk_of_hindrance hindered] at leads
      cases leads

theorem no_link_of_locate (connected : system.Connected) {path : String}
    (located : system.locate path = .ok place) : system.NoLinkAt place := by
  obtain ⟨-, -, leads⟩ := follow_of_locate located
  unfold follow at leads
  cases split : Path.pieces path with
  | nil => exact absurd split (Path.pieces_ne_nil path)
  | cons piece rest =>
      rw [split, List.map_cons] at leads
      have start := directory_of_walk_cons leads
      exact walk_ends_on_no_link connected (no_link_of_directory start) leads

theorem find_ne_link (connected : system.Connected) (path : String) (target : Bytes) :
    system.find path ≠ .ok (.linkTo target) := by
  intro found
  obtain ⟨place, located, held, -⟩ := find_eq_ok.mp found
  exact no_link_of_locate connected located target held

end ArchiveBrowser.FileSystem

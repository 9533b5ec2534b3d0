import ArchiveBrowser.Archive.Directory
import ArchiveBrowser.Proofs.FileSystem.Walk
import ArchiveBrowser.Proofs.Stream.Delivered
import Mathlib

/-!
# What an archive answers from

Reading a path is opening it and draining what opens. An archive over a directory puts its
questions to the file system, at the path that its own path resolves to: which entries there are,
whether there is a file, and what opens without being a directory. What the file system finds
there decides the last two.
-/

set_option autoImplicit false

namespace ArchiveBrowser

namespace Archive

variable {archive : Archive} {path : String} {bytes : Bytes}

theorem read_eq_some :
    (archive.read path).value = .ok (some bytes) ↔
      ∃ source, (archive.openFile path).value = .ok (some source) ∧
        source.fault? = none ∧ source.delivered = bytes := by
  simp only [read, Log.Logged.map]
  cases (archive.openFile path).value with
  | error error => simp
  | ok opened =>
      cases opened with
      | none => simp
      | some source =>
          simp only [Source.read_all_value]
          cases failed : source.fault? <;> simp [failed, Except.map, Except.mapError]

theorem read_of_opened
    (opened : (archive.openFile path).value = .ok (some (.ofBytes bytes))) :
    (archive.read path).value = .ok (some bytes) :=
  read_eq_some.mpr ⟨_, opened, Source.fault_of_bytes bytes, Source.delivered_of_bytes bytes⟩

theorem read_of_not_opened (nothing : (archive.openFile path).value = .ok none) :
    (archive.read path).value = .ok none := by
  simp only [read, Log.Logged.map, nothing]

theorem listed_of_sorted {sorted : List String} {text : String}
    (asked : archive.sortedChildren path = .ok sorted) (member : text ∈ sorted) :
    ∃ names, archive.list path = .ok names ∧ text ∈ names := by
  rw [sorted_children_eq] at asked
  cases listed : archive.list path with
  | error error =>
      rw [listed] at asked
      cases asked
  | ok names =>
      rw [listed] at asked
      cases asked
      exact ⟨names, rfl, List.mem_mergeSort.mp member⟩

end Archive

namespace FileSystem

variable {system : FileSystem} {path : String}

theorem is_directory_eq_true :
    system.isDirectory path = true ↔ ∃ access, system.find path = .ok (.directoryWith access) := by
  unfold isDirectory
  split
  · rename_i found
    simp [found]
  · rename_i elsewhere
    simpa using elsewhere

theorem is_file_eq_true :
    system.isFile path = true ↔
      ∃ object, system.find path = .ok object ∧ ∀ access, object ≠ .directoryWith access := by
  unfold isFile pathExists isDirectory
  cases system.find path with
  | error error => simp
  | ok object => cases object <;> simp

/-- What opens without being a directory. -/
def opened? (system : FileSystem) (path : String) : Option Source :=
  if system.isDirectory path then none else (system.openFile path).toOption

theorem opened_eq_some {source : Source} :
    system.opened? path = some source ↔
      system.isDirectory path = false ∧ system.openFile path = .ok source := by
  unfold opened?
  cases system.isDirectory path with
  | true => simp
  | false => cases system.openFile path <;> simp [Except.toOption]

/-- A path is that of a file just if something opens there, or is there and does not open. -/
theorem is_file_iff :
    system.isFile path = true ↔ (system.opened? path).isSome = true ∨
      ∃ error, system.find path = .ok (.closed error) := by
  unfold isFile opened? pathExists isDirectory openFile
  cases found : system.find path with
  | error error => simp [bind, Except.bind, Except.toOption]
  | ok object =>
      cases object with
      | barred error => exact absurd found (find_ne_barred system path error)
      | file | closed | linkTo | directoryWith =>
          simp [bind, Except.bind, Object.opened, Except.toOption]

theorem is_file_of_opened (opens : (system.opened? path).isSome = true) :
    system.isFile path = true :=
  is_file_iff.mpr (.inl opens)

theorem is_file_of_closed {error : OsError} (closed : system.find path = .ok (.closed error)) :
    system.isFile path = true :=
  is_file_iff.mpr (.inr ⟨error, closed⟩)

theorem open_of_closed {error : OsError} (closed : system.find path = .ok (.closed error)) :
    system.openFile path = .error error := by
  rw [openFile, closed]
  rfl

theorem opened_of_file {bytes : Bytes} (found : system.find path = .ok (.file bytes)) :
    system.opened? path = some (.ofBytes bytes) := by
  rw [opened_eq_some, isDirectory, openFile, found]
  exact ⟨rfl, rfl⟩

theorem opened_of_directory (there : system.isDirectory path = true) :
    system.opened? path = none :=
  if_pos there

theorem opened_of_failure {error : OsError} (failed : system.openFile path = .error error) :
    system.opened? path = none := by
  rw [opened?, failed]
  exact ite_self _

theorem open_of_lost {error : OsError} (lost : system.find path = .error error) :
    system.openFile path = .error error := by
  rw [openFile, lost]
  rfl

theorem is_file_of_lost {error : OsError} (lost : system.find path = .error error) :
    system.isFile path = false := by
  rw [isFile, pathExists, lost]
  rfl

end FileSystem

namespace DirectoryArchive

variable {directory : DirectoryArchive} {path target : String}

theorem listing_of_resolved (resolved : directory.resolve path = .ok target) :
    directory.toArchive.listing path =
      (directory.system.listing target).map
        fun entries => .ok (entries.map (shownName target)) := by
  change directory.listing path = _
  rw [listing, resolved]

theorem listing_of_refused {error : Error} (refused : directory.resolve path = .error error) :
    directory.toArchive.listing path = .quiet (.error error) := by
  change directory.listing path = _
  rw [listing, refused]

theorem list_of_resolved (resolved : directory.resolve path = .ok target) :
    directory.toArchive.list path =
      .ok ((directory.system.listing target).value.map (shownName target)) := by
  rw [Archive.list, listing_of_resolved resolved]
  rfl

theorem list_of_refused {error : Error} (refused : directory.resolve path = .error error) :
    directory.toArchive.list path = .error error := by
  rw [Archive.list, listing_of_refused refused]
  rfl

theorem is_file_of_resolved (resolved : directory.resolve path = .ok target) :
    directory.toArchive.isFile path = .ok (directory.system.isFile target) := by
  change directory.isFile path = _
  rw [isFile, resolved]
  rfl

theorem open_file_of_resolved (resolved : directory.resolve path = .ok target) :
    (directory.toArchive.openFile path).value = .ok (directory.system.opened? target) := by
  change (directory.openFile path).value = _
  unfold openFile FileSystem.opened?
  rw [resolved]
  cases there : directory.system.isDirectory target with
  | true => simp [there]
  | false =>
      cases opens : directory.system.openFile target <;>
        simp [there, opens, Log.Logged.quiet, Except.toOption]

/-- What the archive opens is at the path to which its own resolves, and is no directory. -/
theorem open_file_eq_some {source : Source} :
    (directory.openFile path).value = .ok (some source) ↔
      ∃ file, directory.resolve path = .ok file ∧ directory.system.isDirectory file = false ∧
        directory.system.openFile file = .ok source := by
  cases resolved : directory.resolve path with
  | error error =>
      rw [openFile, resolved]
      simp [Log.Logged.quiet]
  | ok file =>
      have opened : (directory.openFile path).value = .ok (directory.system.opened? file) :=
        open_file_of_resolved resolved
      rw [opened, Except.ok.injEq, FileSystem.opened_eq_some]
      simp

end DirectoryArchive

end ArchiveBrowser

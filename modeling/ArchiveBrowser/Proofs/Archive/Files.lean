import ArchiveBrowser.Proofs.Archive.Answers
import ArchiveBrowser.Proofs.FileSystem.Connected

/-!
# Files of a directory

Where everything there is is in a directory, a path leads to a file, to a directory, to something
that does not open, or nowhere, and what opens without being a directory is a file with its bytes.
Whatever counts as a file of the archive can be read, unless it does not open.
-/

set_option autoImplicit false

namespace ArchiveBrowser

namespace FileSystem

variable {system : FileSystem} {path : String}

/-- The bytes of the file to which a path leads, if it leads to one. -/
def bytesAt? (system : FileSystem) (path : String) : Option Bytes :=
  match system.find path with
  | .ok (.file bytes) => some bytes
  | _ => none

/-- Whatever is there and is no directory opens. -/
def NothingClosed (system : FileSystem) : Prop :=
  ∀ place error, system.objectAt? place ≠ some (.closed error)

theorem find_ne_closed (opens : system.NothingClosed) (path : String) (error : OsError) :
    system.find path ≠ .ok (.closed error) := by
  intro found
  obtain ⟨place, -, held, -⟩ := find_eq_ok.mp found
  exact opens place error held

theorem is_file_eq (opens : system.NothingClosed) (path : String) :
    system.isFile path = (system.opened? path).isSome := by
  rw [Bool.eq_iff_iff, is_file_iff]
  constructor
  · rintro (opened | ⟨error, found⟩)
    · exact opened
    · exact absurd found (find_ne_closed opens path error)
  · exact .inl

theorem file_not_opened_iff :
    system.isFile path = true ∧ system.opened? path = none ↔
      ∃ error, system.find path = .ok (.closed error) := by
  constructor
  · rintro ⟨isFile, nothing⟩
    rcases is_file_iff.mp isFile with opens | closed
    · rw [nothing] at opens
      cases opens
    · exact closed
  · rintro ⟨error, closed⟩
    exact ⟨is_file_of_closed closed, opened_of_failure (open_of_closed closed)⟩

/-- Where everything there is is in a directory, what opens is a file with its bytes. -/
theorem opened_eq (connected : system.Connected) (path : String) :
    system.opened? path = (system.bytesAt? path).map Source.ofBytes := by
  unfold bytesAt?
  cases found : system.find path with
  | error error => rw [opened_of_failure (open_of_lost found), Option.map_none]
  | ok object =>
      cases object with
      | file bytes => rw [opened_of_file found, Option.map_some]
      | closed error => rw [opened_of_failure (open_of_closed found), Option.map_none]
      | linkTo target => exact absurd found (find_ne_link connected path target)
      | directoryWith access =>
          rw [opened_of_directory (is_directory_eq_true.mpr ⟨access, found⟩), Option.map_none]
      | barred error => exact absurd found (find_ne_barred system path error)

theorem bytes_of_opened (connected : system.Connected) {source : Source}
    (opened : system.opened? path = some source) : ∃ bytes, source = .ofBytes bytes := by
  rw [opened_eq connected, Option.map_eq_some_iff] at opened
  obtain ⟨bytes, -, same⟩ := opened
  exact ⟨bytes, same.symm⟩

end FileSystem

namespace DirectoryArchive

variable {directory : DirectoryArchive} {path : String}

end DirectoryArchive

end ArchiveBrowser

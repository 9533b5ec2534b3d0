import ArchiveBrowser.Archive.Opening
import ArchiveBrowser.Proofs.Archive.Refusals

/-!
# Opened archives

However a target is written, what opens is a directory of the file system or a ZIP archive with
the index of its entries, and so it refuses just the paths that its kind refuses.
-/

set_option autoImplicit false

namespace ArchiveBrowser

namespace ZipArchive

theorem index_of_bytes {sourceName : String} {bytes : Bytes} {zip : ZipArchive}
    (opened : (ofBytes sourceName bytes).value = .ok zip) : zip.index = indexOf zip.table.names := by
  unfold ofBytes at opened
  split at opened
  · cases opened
  · rw [of_table_value] at opened
    cases opened
    rfl

theorem index_of_file {system : FileSystem} {path : String} {zip : ZipArchive}
    (opened : (ofFile system path).value = .ok zip) : zip.index = indexOf zip.table.names := by
  unfold ofFile at opened
  split at opened
  · cases opened
  · split at opened
    · cases opened
    · exact index_of_bytes opened

end ZipArchive

namespace Archive

theorem refuses_of_refusal {archive : Archive} {path : String} {error : Error}
    (uniform : archive.Uniform path) (refused : archive.kind.refusal? path = some error) :
    archive.Refuses path error := by
  rcases (Kind.refusal_is_precondition refused).1 with rfl | rfl
  · exact uniform.invalid_path.mpr (Kind.refusal_invalid_path.mp refused)
  · exact uniform.path_traversal.mpr (Kind.refusal_path_traversal.mp refused)

/-- What opens from a file system: one of its directories, or a ZIP archive that is indexed. -/
inductive OpensFrom (system : FileSystem) : Archive → Prop where
  | directory (root : String) : OpensFrom system (DirectoryArchive.mk system root).toArchive
  | zip (zip : ZipArchive) (indexed : zip.index = ZipArchive.indexOf zip.table.names) :
      OpensFrom system zip.toArchive

variable {system : FileSystem} {archive : Archive}

theorem opens_of_directory {path : String}
    (opened : (ofDirectory system path).value = .ok archive) : OpensFrom system archive := by
  cases opened
  exact .directory path

theorem opens_of_zip_file {path : String}
    (opened : (ofZipFile system path).value = .ok archive) : OpensFrom system archive := by
  change (ZipArchive.ofFile system path).value.map ZipArchive.toArchive = .ok archive at opened
  cases read : (ZipArchive.ofFile system path).value with
  | error error =>
      rw [read] at opened
      cases opened
  | ok zip =>
      rw [read] at opened
      cases opened
      exact .zip zip (ZipArchive.index_of_file read)

theorem opens_of_target {target : String}
    (opened : (ofTarget system target).value = .ok archive) : OpensFrom system archive := by
  unfold ofTarget at opened
  split at opened
  · unfold ofUri at opened
    split at opened
    · cases opened
    · split at opened
      · exact opens_of_directory opened
      · exact opens_of_zip_file opened
      · cases opened
  · unfold ofPath at opened
    split at opened
    · exact opens_of_directory opened
    · split at opened
      · cases opened
      · split at opened
        · cases opened
        · split at opened
          · exact opens_of_zip_file opened
          · cases opened

theorem OpensFrom.uniform (opens : OpensFrom system archive) (path : String) :
    archive.Uniform path := by
  cases opens with
  | directory root => exact DirectoryArchive.uniform _ path
  | zip zip _ => exact zip.uniform path

theorem OpensFrom.height_positive (opens : OpensFrom system archive) : 0 < archive.height := by
  cases opens with
  | directory root => exact Nat.succ_pos _
  | zip zip _ => exact Nat.succ_pos _

end Archive

end ArchiveBrowser

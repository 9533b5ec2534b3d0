import ArchiveBrowser.Proofs.Archive.Files
import ArchiveBrowser.Proofs.Archive.Streams
import ArchiveBrowser.Proofs.Command.Printing
import ArchiveBrowser.Proofs.Command.Target
import ArchiveBrowser.Proofs.Stream.Accounting

/-!
# What the commands on a file make of its contents

Reading a file into memory, showing it and digesting it drain the same source, each into an
outlet of its own. `Source.delivered` is what all three get to see, in whatever pieces; the
commands therefore agree with what reading the path gives.
-/

set_option autoImplicit false

namespace ArchiveBrowser.Command

variable {source : Source}

variable {system : FileSystem} {target : String} {archive : Archive} {path : String}

namespace SampleClosed

def top : FileName := ⟨Bytes.ofText "y", by decide⟩

def shut : FileName := ⟨Bytes.ofText "j", by decide⟩

/-- There is a file that does not open. -/
def directory : DirectoryArchive where
  system :=
    { objects := [([top], .directory), ([top, shut], .closed .permissionDenied)]
      workingDirectory := []
      distinct := by decide }
  root := "y"

theorem closed : directory.system.find "y/j" = .ok (.closed .permissionDenied) := by
  have clean : '\x00' ∉ "y/j".toList := by decide
  have cut : (Path.pieces "y/j").map Bytes.ofText = [[0x79], [0x6a]] := by decide
  have located : directory.system.locate "y/j" = .ok [top, shut] := by
    rw [FileSystem.locate_from_root rfl (by decide) clean (by decide) cut]
    cbv
  exact FileSystem.find_eq_ok.mpr ⟨_, located, by decide, by simp⟩

end SampleClosed

end ArchiveBrowser.Command

import ArchiveBrowser.Archive.Opening
import ArchiveBrowser.Command.Output

/-!
# Targets of commands

The archive that a command is about is opened first; if that fails, nothing is
written.
-/

set_option autoImplicit false

namespace ArchiveBrowser.Command

open Log

def withArchive (system : FileSystem) (target : String) (sink : Sink)
    (use : Archive → Logged Outcome) : Logged Outcome :=
  (Archive.ofTarget system target).andThen fun
    | .error error => .quiet (.error (.archive error), sink)
    | .ok archive => use archive

def withFile (archive : Archive) (target path : String) (sink : Sink)
    (use : Source → Logged Outcome) : Logged Outcome :=
  (archive.openFile path).andThen fun
    | .error error => .quiet (.error (.archive error), sink)
    | .ok none => .quiet (.error (.noSuchFile path target), sink)
    | .ok (some source) => use source

end ArchiveBrowser.Command

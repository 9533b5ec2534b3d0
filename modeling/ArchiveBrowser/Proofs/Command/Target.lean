import ArchiveBrowser.Command.File

/-!
# What comes of the target of a command

A command on an archive that opens is what it does with that archive, and a command on a file
is what it does with the file, unless there is none to be had.
-/

set_option autoImplicit false

namespace ArchiveBrowser.Command

open Log

theorem with_archive_value {system : FileSystem} {target : String} {archive : Archive}
    (opened : (Archive.ofTarget system target).value = .ok archive) (sink : Sink)
    (use : Archive → Logged Outcome) :
    (withArchive system target sink use).value = (use archive).value := by
  unfold withArchive Logged.andThen
  rw [opened]

variable {system : FileSystem} {archive : Archive} {target path : String}

theorem with_file_refused {error : Error}
    (refused : (archive.openFile path).value = .error error) (target : String) (sink : Sink)
    (use : Source → Logged Outcome) :
    (withFile archive target path sink use).value = (.error (.archive error), sink) := by
  unfold withFile Logged.andThen
  rw [refused]
  rfl

/-- Showing the file and digesting it both fail so, and leave the output alone. -/
def BothFail (system : FileSystem) (target path : String) (failure : Failure) : Prop :=
  ∀ sink, (showFile system target path sink).value = (.error failure, sink) ∧
    ∀ algorithm,
      (digestFile system (some target) algorithm path sink).value = (.error failure, sink)

theorem both_fail (opened : (Archive.ofTarget system target).value = .ok archive)
    {failure : Failure}
    (fails : ∀ sink use, (withFile archive target path sink use).value = (.error failure, sink)) :
    BothFail system target path failure := by
  intro sink
  constructor
  · exact (with_archive_value opened sink _).trans (fails sink _)
  · intro algorithm
    exact (with_archive_value opened sink _).trans (fails sink _)

end ArchiveBrowser.Command

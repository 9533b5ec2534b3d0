import ArchiveBrowser.Archive.Basic
import ArchiveBrowser.FileSystem.Query

/-!
# Directories as archives

An archive over a directory of a file system. Its paths are resolved below the root
directory by their text alone: a path with a `..` segment is refused, so that no
path leads upwards. Whatever the file system refuses is logged at most; to the caller it
is an empty listing, no file, or nothing that opens.
-/

set_option autoImplicit false

namespace ArchiveBrowser

open Log

structure DirectoryArchive where
  system : FileSystem
  root : String

namespace DirectoryArchive

def rootIsNoDirectory (root : String) : Event :=
  .debug "directory archive root is not a directory" [("root", .plain root)]

/-- The archive over the directory at `root`, which need not be there. -/
def atRoot (system : FileSystem) (root : String) : Logged DirectoryArchive :=
  { value := { system, root }
    events := if system.isDirectory root then [] else [rootIsNoDirectory root] }

def resolve (archive : DirectoryArchive) (path : String) : Except Error String :=
  match Path.afterRoot? path with
  | none => .error (.invalidPath path)
  | some rest =>
    let relative := String.ofList (rest.toList.dropWhile (· == Path.separator))
    if relative.isEmpty then .ok archive.root
    else if (Path.components relative).contains .parent then .error (.pathTraversal path)
    else .ok (Path.push archive.root relative)

/-- The name of an entry is what its path adds to that of the directory, shown as a text. -/
def shownName (directory : String) (entry : Bytes) : String :=
  Text.Utf8.decodeLenient (Path.Bytewise.relative entry (Bytes.ofText directory))

def listing (archive : DirectoryArchive) (path : String) :
    Logged (Except Error (List String)) :=
  match archive.resolve path with
  | .error error => .quiet (.error error)
  | .ok directory =>
    (archive.system.listing directory).map fun entries => .ok (entries.map (shownName directory))

def isFile (archive : DirectoryArchive) (path : String) : Except Error Bool :=
  (archive.resolve path).map archive.system.isFile

def refusedDirectory (path : String) : Event :=
  .debug "refusing to open a directory" [("path", .quoted path)]

def openFile (archive : DirectoryArchive) (path : String) :
    Logged (Except Error (Option Source)) :=
  match archive.resolve path with
  | .error error => .quiet (.error error)
  | .ok file =>
    if archive.system.isDirectory file then { value := .ok none, events := [refusedDirectory path] }
    else
      match archive.system.openFile file with
      | .ok source => .quiet (.ok (some source))
      | .error error => { value := .ok none, events := [FileSystem.openFailed file error] }

/-- The directory as an archive. No path below a directory can have more names than a
path may have bytes. -/
def toArchive (archive : DirectoryArchive) : Archive :=
  { kind := .directory
    listing := archive.listing
    isFile := archive.isFile
    openFile := archive.openFile
    height := FileSystem.pathLimit + 1 }

end DirectoryArchive

end ArchiveBrowser

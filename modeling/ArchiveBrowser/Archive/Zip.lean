import ArchiveBrowser.Archive.Basic
import ArchiveBrowser.FileSystem.Query
import ArchiveBrowser.Zip.Archive

/-!
# ZIP containers as archives

A container that is open answers as an archive. Each opened file is decoded as a
whole, so that its source depends on nothing else.
-/

set_option autoImplicit false

namespace ArchiveBrowser

open Log

namespace ZipArchive

def ofFile (system : FileSystem) (path : String) : Logged (Except Error ZipArchive) :=
  match system.openFile path with
  | .error error => .quiet (.error (.containerOpenFailed path error.message))
  | .ok source =>
    match source.readAll.1 with
    | .error _ => .quiet (.error (.containerOpenFailed path Zip.Flaw.cutOff.message))
    | .ok bytes => ofBytes path bytes

def openFile (zip : ZipArchive) (path : String) : Logged (Except Error (Option Source)) :=
  (zip.contents path).map fun contents => contents.map fun bytes => bytes.map Source.ofBytes

/-- The container as an archive. No path of its index can have more segments than the
longest name has characters, and one. -/
def toArchive (zip : ZipArchive) : Archive :=
  { kind := .zip
    listing := fun path => .quiet (zip.list path)
    isFile := zip.isFile
    openFile := zip.openFile
    height := (zip.table.names.map String.length).foldl max 0 + 2 }

end ZipArchive

end ArchiveBrowser

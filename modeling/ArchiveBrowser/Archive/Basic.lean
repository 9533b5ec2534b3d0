import ArchiveBrowser.Error
import ArchiveBrowser.Log.Event
import ArchiveBrowser.Path.Segments
import ArchiveBrowser.Stream.Copy

/-!
# Archives

What the kinds of archive have in common: paths that start with a slash, listings
of names, and files that open as sources of bytes. A path that leads nowhere is no
error; it has an empty listing and does not open.
-/

set_option autoImplicit false

namespace ArchiveBrowser

open Log

inductive Archive.Kind where
  | directory
  | zip
  deriving DecidableEq

namespace Archive.Kind

def name : Kind → String
  | directory => "Directory"
  | zip => "ZIP"

def scheme : Kind → String
  | directory => "dir"
  | zip => "zip"

def ofScheme? (scheme : String) : Option Kind :=
  if scheme = directory.scheme then some directory
  else if scheme = zip.scheme then some zip
  else none

end Archive.Kind

structure Archive where
  kind : Archive.Kind
  listing : (path : String) → Logged (Except Error (List String))
  isFile : (path : String) → Except Error Bool
  openFile : (path : String) → Logged (Except Error (Option Source))
  /-- How many levels a listing of everything may have below its start. -/
  height : Nat

namespace Archive

def list (archive : Archive) (path : String) : Except Error (List String) :=
  (archive.listing path).value

def read (archive : Archive) (path : String) : Logged (Except Error (Option Bytes)) :=
  (archive.openFile path).map fun
    | .error error => .error error
    | .ok none => .ok none
    | .ok (some source) => (source.readAll.1.map some).mapError .io

/-- A path counts as a directory if there is something below it, or if it is no file:
a directory on disk may be empty. -/
def mark (archive : Archive) (path : String) : Logged (Except Error Bool) :=
  (archive.listing path).map fun listed => do
    let names ← listed
    if names.isEmpty then
      let isFile ← archive.isFile path
      .ok !isFile
    else .ok true

def isDirectory (archive : Archive) (path : String) : Except Error Bool :=
  (archive.mark path).value

def children (archive : Archive) (path : String) : Logged (Except Error (List String)) :=
  (archive.listing path).map fun listed =>
    listed.map fun names => names.mergeSort fun first second => first ≤ second

def sortedChildren (archive : Archive) (path : String) : Except Error (List String) :=
  (archive.children path).value

theorem is_directory_eq (archive : Archive) (path : String) :
    archive.isDirectory path = (archive.list path).bind fun names =>
      if names.isEmpty then (archive.isFile path).bind fun isFile => .ok !isFile else .ok true :=
  rfl

theorem sorted_children_eq (archive : Archive) (path : String) :
    archive.sortedChildren path =
      (archive.list path).map fun names => names.mergeSort fun first second => first ≤ second :=
  rfl

end Archive

end ArchiveBrowser

import ArchiveBrowser.Command.Target
import ArchiveBrowser.Glob.Matching
import ArchiveBrowser.Json.Pretty
import ArchiveBrowser.Path.Parts

/-!
# Listing a directory

The names below one path of an archive in increasing order, those that a filter
admits, either one to a line or as a JSON document.
-/

set_option autoImplicit false

namespace ArchiveBrowser.Command

open Log

structure Entry where
  name : String
  path : String
  isDirectory : Bool
  deriving DecidableEq

structure ListOptions where
  asJson : Bool
  filter : Glob.Filter

def entriesOf (archive : Archive) (directory : String) :
    (names : List String) → Logged (Except Error (List Entry))
  | [] => .quiet (.ok [])
  | name :: rest =>
    let path := Path.child directory name
    (archive.mark path).andThen fun
      | .error error => .quiet (.error error)
      | .ok isDirectory =>
        (entriesOf archive directory rest).map fun others =>
          others.map fun others => { name, path, isDirectory } :: others

def entries (archive : Archive) (path : String) (filter : Glob.Filter) :
    Logged (Except Error (List Entry)) :=
  (archive.children path).andThen fun
    | .error error => .quiet (.error error)
    | .ok names => entriesOf archive path (names.filter filter.admits)

theorem entries_of_cons (archive : Archive) (directory name : String) (rest : List String) :
    (entriesOf archive directory (name :: rest)).value =
      (archive.isDirectory (Path.child directory name)).bind fun isDirectory =>
        (entriesOf archive directory rest).value.map fun others =>
          { name, path := Path.child directory name, isDirectory } :: others := by
  rw [entriesOf, Archive.isDirectory]
  cases asked : (archive.mark (Path.child directory name)).value <;>
    simp [Logged.andThen, Logged.map, Logged.quiet, asked, Except.bind]

theorem entries_value (archive : Archive) (path : String) (filter : Glob.Filter) :
    (entries archive path filter).value =
      (archive.sortedChildren path).bind fun names =>
        (entriesOf archive path (names.filter filter.admits)).value := by
  rw [entries, Archive.sortedChildren]
  cases asked : (archive.children path).value <;>
    simp [Logged.andThen, Logged.quiet, asked, Except.bind]

namespace Entry

/-- An entry as a line: a slash marks a directory. -/
def line (entry : Entry) : List String :=
  [entry.name, if entry.isDirectory then "/\n" else "\n"]

def toJson (entry : Entry) : Json.Pieces :=
  Json.object 2
    [("name", Json.text entry.name), ("path", Json.text entry.path),
      ("is_dir", Json.boolean entry.isDirectory)]

end Entry

def listingJson (target : String) (kind : Archive.Kind) (path : String) (entries : List Entry) :
    Json.Pieces :=
  Json.object 0
    [("archive", Json.text target), ("kind", Json.text kind.name), ("path", Json.text path),
      ("entries", Json.array 1 (entries.map Entry.toJson))]

def listingPieces (target : String) (archive : Archive) (path : String) (asJson : Bool)
    (entries : List Entry) : List Piece :=
  if asJson then
    pieces .document (listingJson target archive.kind path entries) ++ pieces .line ["\n"]
  else pieces .line (entries.flatMap Entry.line)

def listIn (archive : Archive) (target path : String) (options : ListOptions) (sink : Sink) :
    Logged Outcome :=
  (entries archive path options.filter).map fun
    | .error error => (.error (.archive error), sink)
    | .ok entries => print sink (listingPieces target archive path options.asJson entries)

def list (system : FileSystem) (target path : String) (options : ListOptions) (sink : Sink) :
    Logged Outcome :=
  withArchive system target sink fun archive => listIn archive target path options sink

end ArchiveBrowser.Command

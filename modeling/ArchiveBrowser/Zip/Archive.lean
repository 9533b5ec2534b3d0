import ArchiveBrowser.Log.Event
import ArchiveBrowser.Trie.Basic
import ArchiveBrowser.Zip.Table

/-!
# ZIP archives

A table of entries together with a path trie that answers for it what a directory
tree would. Names that end in a slash only mark directories and are left out;
directories follow from the paths of files alone. Of several entries with one name
the last counts.
-/

set_option autoImplicit false

namespace ArchiveBrowser

open Log

structure ZipArchive where
  sourceName : String
  table : Zip.Table
  /-- The payload of a path is the position of its entry. -/
  index : Trie Nat

namespace ZipArchive

def memorySource : String := "<memory>"

def duplicateName (path : String) (entry : Nat) : Event :=
  .debug "duplicate zip entry name, keeping the later one"
    [("path", .plain path), ("entry", .number entry)]

/-- Enters `names` into an index, where the first of them is at position `entry`. -/
def indexFrom (index : Trie Nat) (entry : Nat) :
    (names : List String) → Logged (Except Error (Trie Nat))
  | [] => .quiet (.ok index)
  | name :: rest =>
    if Path.endsWithSeparator name then indexFrom index (entry + 1) rest
    else
      let path := "/" ++ name
      match index.put path entry with
      | .error error => .quiet (.error error)
      | .ok (previous, index) =>
        let events := if previous.isSome then [duplicateName path entry] else []
        let later := indexFrom index (entry + 1) rest
        { later with events := events ++ later.events }

def buildIndex (names : List String) : Logged (Except Error (Trie Nat)) :=
  indexFrom .empty 0 names

def entryCount (zip : ZipArchive) : Nat :=
  zip.table.names.length

def fileCount (zip : ZipArchive) : Nat :=
  zip.index.payloadCount

def opened (zip : ZipArchive) : Event :=
  .debug "opened zip archive"
    [("source", .plain zip.sourceName), ("entries", .number zip.entryCount),
      ("files", .number zip.fileCount)]

def ofTable (sourceName : String) (table : Zip.Table) : Logged (Except Error ZipArchive) :=
  let index := buildIndex table.names
  match index.value with
  | .error error => { value := .error error, events := index.events }
  | .ok trie =>
    let zip : ZipArchive := { sourceName, table, index := trie }
    { value := .ok zip, events := index.events ++ [zip.opened] }

def ofBytes (sourceName : String) (bytes : Bytes) : Logged (Except Error ZipArchive) :=
  match Zip.Table.read bytes.toArray with
  | .error flaw => .quiet (.error (.containerOpenFailed sourceName flaw.message))
  | .ok table => ofTable sourceName table

def describe (zip : ZipArchive) : String :=
  "ZipArchive \x7b source_name: " ++ Text.quoted zip.sourceName ++ ", files: " ++
    toString zip.fileCount ++ " \x7d"

def list (zip : ZipArchive) (path : String) : Except Error (List String) :=
  if Path.isAbsolute path then .ok (zip.index.list path) else .error (.invalidPath path)

def isFile (zip : ZipArchive) (path : String) : Except Error Bool :=
  if Path.isAbsolute path then .ok (zip.index.payload? path).isSome
  else .error (.invalidPath path)

def entryFailed (path : String) (entry : Nat) (flaw : Zip.EntryFlaw) : Event :=
  let (message, error) :=
    match flaw with
    | .closed flaw => ("cannot open zip entry", flaw.message)
    | .undecodable fault => ("cannot decompress zip entry", (Error.io fault).message)
  .debug message [("path", .quoted path), ("entry", .number entry), ("error", .plain error)]

def contents (zip : ZipArchive) (path : String) : Logged (Except Error (Option Bytes)) :=
  if Path.isAbsolute path then
    match zip.index.payload? path with
    | none => .quiet (.ok none)
    | some entry =>
      match zip.table.contents entry with
      | .ok bytes => .quiet (.ok (some bytes))
      | .error flaw => { value := .ok none, events := [entryFailed path entry flaw] }
  else .quiet (.error (.invalidPath path))

end ZipArchive

end ArchiveBrowser

import ArchiveBrowser.Error
import ArchiveBrowser.FileSystem.Query

/-!
# Making directories

One directory is made where the way to it is there already; a whole path is made by
making what holds it first wherever that is missing.
-/

set_option autoImplicit false

namespace ArchiveBrowser.FileSystem

def splitLast (path : String) : List String × String :=
  match (Path.pieces path).reverse.dropWhile String.isEmpty with
  | [] => ([""], ".")
  | last :: before => (before.reverse, last)

def makeDirectory (system : FileSystem) (path : String) : Except OsError FileSystem :=
  if path.toList.contains '\x00' then .error .unexpectedNul
  else if path.isEmpty then .error .notFound
  else if pathLimit < path.utf8ByteSize then .error .nameTooLong
  else do
    let (before, last) := splitLast path
    let start := startOf system.workingDirectory (Bytes.ofText path)
    let holder ← system.walk linkLimit start (before.map Bytes.ofText)
    match system.hindrance holder (Bytes.ofText last) with
    | some error => .error error
    | none =>
      if last = "." || last = ".." then .error .alreadyExists
      else
        match FileName.ofText? last with
        | none => .error .nameTooLong
        | some name =>
          if (system.objectAt? (holder ++ [name])).isSome then .error .alreadyExists
          else .ok (system.put (holder ++ [name]) .directory)

/-- Makes the first of `paths`, each of which is held by the one after it. What has
been made stays even if the rest fails. -/
def makeFirst (system : FileSystem) : (paths : List String) → Except OsError Unit × FileSystem
  | [] => (.ok (), system)
  | path :: holders =>
    if path.isEmpty then (.ok (), system)
    else
      match system.makeDirectory path with
      | .ok made => (.ok (), made)
      | .error .notFound =>
        match system.makeFirst holders with
        | (.error error, held) => (.error error, held)
        | (.ok _, held) =>
          match held.makeDirectory path with
          | .ok made => (.ok (), made)
          | .error error => (if held.isDirectory path then .ok () else .error error, held)
      | .error error => (if system.isDirectory path then .ok () else .error error, system)

/-- Makes a directory and whatever is missing on the way to it. The empty path, and a
path that exists, are not touched. -/
def makeDirectories (system : FileSystem) (path : String) : Except Error Unit × FileSystem :=
  if path.isEmpty || system.pathExists path then (.ok (), system)
  else
    let (made, after) := system.makeFirst (Path.ancestors path)
    (made.mapError fun error => .io (.system error), after)

end ArchiveBrowser.FileSystem

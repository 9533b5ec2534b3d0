import ArchiveBrowser.FileSystem.Basic
import ArchiveBrowser.Path.Segments

/-!
# Resolving paths

A path is followed name by name. Wherever there is another piece to follow, the
place reached so far has to be a directory, and one that may be searched unless the
piece is empty; a symbolic link is replaced by the pieces of its target, for a limited
number of times, so that resolution ends whatever the links are.
-/

set_option autoImplicit false

namespace ArchiveBrowser.FileSystem

def linkLimit : Nat := 40

def pathLimit : Nat := 4095

def startOf (here : Location) (path : Bytes) : Location :=
  if Path.Bytewise.isAbsolute path then [] else here

/-- Why a piece of a path cannot be followed from a place, whatever it names. -/
def hindrance (system : FileSystem) (here : Location) (piece : Bytes) : Option OsError :=
  match system.accessAt? here with
  | none => some .notADirectory
  | some access => if piece.isEmpty then none else access.search

/-- Follows `pieces` from the place `here`, through at most `links` symbolic links. -/
def walk (system : FileSystem) (links : Nat) (here : Location) (pieces : List Bytes) :
    Except OsError Location :=
  match pieces with
  | [] => .ok here
  | piece :: rest =>
    match system.hindrance here piece with
    | some error => .error error
    | none =>
      if piece.isEmpty || piece = Path.Bytewise.current then system.walk links here rest
      else if piece = Path.Bytewise.parent then system.walk links here.dropLast rest
      else
        match FileName.ofBytes? piece with
        | none => .error (if FileName.limit < piece.length then .nameTooLong else .notFound)
        | some name =>
          match system.objectAt? (here ++ [name]), links with
          | none, _ => .error .notFound
          | some (.barred error), _ => .error error
          | some (.linkTo _), 0 => .error .tooManyLinks
          | some (.linkTo target), links + 1 =>
            system.walk links (startOf here target) (Path.Bytewise.pieces target ++ rest)
          | some _, links => system.walk links (here ++ [name]) rest
termination_by (links, pieces.length)

def locate (system : FileSystem) (path : String) : Except OsError Location :=
  if path.toList.contains '\x00' then .error .unexpectedNul
  else if path.isEmpty then .error .notFound
  else if pathLimit < path.utf8ByteSize then .error .nameTooLong
  else
    let bytes := Bytes.ofText path
    system.walk linkLimit (startOf system.workingDirectory bytes) (Path.Bytewise.pieces bytes)

def find (system : FileSystem) (path : String) : Except OsError Object := do
  let location ← system.locate path
  match system.objectAt? location with
  | none => .error .notFound
  | some (.barred error) => .error error
  | some object => .ok object

end ArchiveBrowser.FileSystem

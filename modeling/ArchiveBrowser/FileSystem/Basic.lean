import ArchiveBrowser.FileSystem.Name
import ArchiveBrowser.Fault

/-!
# File systems

A file system is a finite value: what is to be found at which place, and the place
from which relative paths start. No place holds two objects. The root is a
directory that is always there.

What is there need not be accessible. A file may refuse to be opened, a directory to be
read or to be searched, and an entry of a directory to be looked up; reading a directory
may break off. A file that opens is read to its end, and nothing changes while it is read.
-/

set_option autoImplicit false

namespace ArchiveBrowser

/-- What comes of reading a directory. -/
inductive Listing where
  | complete
  /-- Reading breaks off when these of the entries have been seen. -/
  | brokenOff (seen : List FileName)
  | refused (error : OsError)
  deriving DecidableEq

/-- What a directory can be used for. -/
structure Access where
  listing : Listing
  /-- Why nothing can be looked up in the directory, if so. -/
  search : Option OsError
  deriving DecidableEq

@[match_pattern] def Access.full : Access := { listing := .complete, search := none }

inductive Object where
  | file (bytes : Bytes)
  /-- It is no directory and does not open: it may not be read, or it is a socket. -/
  | closed (error : OsError)
  | linkTo (target : Bytes)
  | directoryWith (access : Access)
  /-- Its directory has an entry for it, which cannot be looked up. -/
  | barred (error : OsError)
  deriving DecidableEq

namespace Object

@[match_pattern] def directory : Object := .directoryWith .full

def link (target : String) : Object := .linkTo (Bytes.ofText target)

end Object

structure FileSystem where
  objects : List (Location × Object)
  workingDirectory : Location
  distinct : (objects.map Prod.fst).Nodup
  rootAccess : Access := .full

namespace FileSystem

def empty : FileSystem :=
  { objects := [], workingDirectory := [], distinct := List.nodup_nil }

def objectAt? (system : FileSystem) (location : Location) : Option Object :=
  if location.isEmpty then some (.directoryWith system.rootAccess)
  else system.objects.lookup location

/-- What can be done with the directory at a place, if there is one. -/
def accessAt? (system : FileSystem) (location : Location) : Option Access :=
  match system.objectAt? location with
  | some (.directoryWith access) => some access
  | _ => none

theorem distinct_put (objects : List (Location × Object)) (location : Location) (object : Object)
    (distinct : (objects.map Prod.fst).Nodup) :
    ((objects.filter (·.1 != location) ++ [(location, object)]).map Prod.fst).Nodup := by
  rw [List.map_append, List.nodup_append]
  refine ⟨distinct.sublist (List.Sublist.map _ List.filter_sublist), by simp, ?_⟩
  intro place inside other isLocation
  simp only [List.mem_map, List.mem_filter] at inside
  obtain ⟨entry, ⟨-, differs⟩, rfl⟩ := inside
  simp only [List.map_cons, List.map_nil, List.mem_singleton] at isLocation
  simpa [isLocation] using differs

def put (system : FileSystem) (location : Location) (object : Object) : FileSystem :=
  { system with
    objects := system.objects.filter (·.1 != location) ++ [(location, object)]
    distinct := distinct_put system.objects location object system.distinct }

/-- Puts an object at a place, and directories where the way to it has nothing. -/
def place (system : FileSystem) (location : Location) (object : Object) : FileSystem :=
  let holders := (List.range location.length).map location.take
  let held := holders.foldl (fun system holder =>
    if (system.objectAt? holder).isNone then system.put holder .directory else system) system
  held.put location object

def nameIn? : (directory place : Location) → Option FileName
  | [], [name] => some name
  | step :: directory, other :: place => if step = other then nameIn? directory place else none
  | _, _ => none

def namesIn (system : FileSystem) (directory : Location) : List FileName :=
  system.objects.filterMap fun entry => nameIn? directory entry.1

end FileSystem

end ArchiveBrowser

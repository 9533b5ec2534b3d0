import ArchiveBrowser.Error
import ArchiveBrowser.FileSystem.Resolution
import ArchiveBrowser.Log.Event
import ArchiveBrowser.Stream.Copy

/-!
# Asking a file system

What there is at a path, which entries a directory has, and what a file holds.
-/

set_option autoImplicit false

namespace ArchiveBrowser

open Log

/-- What comes of opening an object. A directory opens if it can be read, but the first read
of it as of a file fails. -/
def Object.opened : Object → Except OsError Source
  | .file bytes => .ok (.ofBytes bytes)
  | .closed error | .barred error => .error error
  | .linkTo _ => .ok [.failure (.system .isADirectory)]
  | .directoryWith access =>
    match access.listing with
    | .refused error => .error error
    | .complete | .brokenOff _ => .ok [.failure (.system .isADirectory)]

namespace FileSystem

def pathExists (system : FileSystem) (path : String) : Bool :=
  match system.find path with
  | .ok _ => true
  | .error _ => false

def isDirectory (system : FileSystem) (path : String) : Bool :=
  match system.find path with
  | .ok (.directoryWith _) => true
  | _ => false

def isFile (system : FileSystem) (path : String) : Bool :=
  system.pathExists path && !system.isDirectory path

/-- The entries that reading a directory shows. One that breaks off shows those that it has
come to, and says nothing about it. -/
def entriesAt (system : FileSystem) (place : Location) : Except OsError (List FileName) :=
  match system.accessAt? place with
  | none => .error .notADirectory
  | some access =>
    match access.listing with
    | .complete => .ok (system.namesIn place)
    | .brokenOff seen => .ok ((system.namesIn place).filter (seen.contains ·))
    | .refused error => .error error

def listFailed (path : String) (error : OsError) : Event :=
  .debug "read_dir failed" [("path", .plain path), ("error", .plain error.message)]

/-- The entries of the directory to which a path leads, each as a path that goes on
from it; no entries if it leads to no directory, or to one that cannot be read. -/
def listing (system : FileSystem) (path : String) : Logged (List Bytes) :=
  if system.isDirectory path then
    match system.locate path >>= system.entriesAt with
    | .ok names =>
      .quiet (names.map fun name => Path.Bytewise.push (Bytes.ofText path) name.bytes)
    | .error error => { value := [], events := [listFailed path error] }
  else .quiet []

/-- The same as texts. -/
def list (system : FileSystem) (path : String) : List String :=
  (system.listing path).value.map Text.Utf8.decodeLenient

def openFile (system : FileSystem) (path : String) : Except OsError Source :=
  system.find path >>= Object.opened

def openFailed (path : String) (error : OsError) : Event :=
  .debug "open failed" [("path", .plain path), ("error", .plain error.message)]

def contents (system : FileSystem) (path : String) : Logged (Except Error Bytes) :=
  match system.openFile path with
  | .ok source => .quiet (source.readAll.1.mapError .io)
  | .error error => { value := .error (.notOpen path), events := [openFailed path error] }

end FileSystem

end ArchiveBrowser

import ArchiveBrowser.Command.Target

/-!
# Showing and digesting a file

A file of an archive is copied to the output as it is, or its digest is written in
front of its name.
-/

set_option autoImplicit false

namespace ArchiveBrowser.Command

open Log

def entryWritten (path : String) (count : Nat) : Event :=
  .debug "entry written" [("path", .quoted path), ("bytes", .number count)]

def showSource (path : String) (source : Source) (sink : Sink) : Logged Outcome :=
  let copied := source.copy sink
  match copied.outcome with
  | .error fault => .quiet (.error (.archive (.io fault)), copied.outlet)
  | .ok count => { value := (.ok (), copied.outlet), events := [entryWritten path count] }

def showIn (archive : Archive) (target path : String) (sink : Sink) : Logged Outcome :=
  withFile archive target path sink fun source => showSource path source sink

def showFile (system : FileSystem) (target path : String) (sink : Sink) : Logged Outcome :=
  withArchive system target sink fun archive => showIn archive target path sink

def digestPieces (hex file : String) : List Piece :=
  pieces .line [hex, "  ", file, "\n"]

def digestSource (algorithm : Digest.Algorithm) (file : String) (source : Source) (sink : Sink) :
    Outcome :=
  match (source.digest algorithm).1 with
  | .error fault => (.error (.archive (.io fault)), sink)
  | .ok hex => print sink (digestPieces hex file)

def digestIn (archive : Archive) (target : String) (algorithm : Digest.Algorithm) (file : String)
    (sink : Sink) : Logged Outcome :=
  withFile archive target file sink fun source => .quiet (digestSource algorithm file source sink)

/-- Writes the digest of a file of an archive, or of the file system if none is named. -/
def digestFile (system : FileSystem) (target : Option String) (algorithm : Digest.Algorithm)
    (file : String) (sink : Sink) : Logged Outcome :=
  match target with
  | some target =>
    withArchive system target sink fun archive => digestIn archive target algorithm file sink
  | none =>
    match system.openFile file with
    | .error _ => .quiet (.error (.archive (.notOpen file)), sink)
    | .ok source => .quiet (digestSource algorithm file source sink)

end ArchiveBrowser.Command

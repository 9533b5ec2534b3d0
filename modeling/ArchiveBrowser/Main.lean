import ArchiveBrowser.Program

/-!
# The command line program

What a command is about is read from the disk into a file system value, the command
is carried out on that, and what it leaves behind is written out.
-/

set_option autoImplicit false

namespace ArchiveBrowser.Main

open CommandLine

def depthLimit : Nat := 64

def nowhere : Object := .link "\x00"

def pathOf? (arguments : List String) : Option String :=
  let pathOfTarget (target : String) : String :=
    match Uri.parse target with
    | .ok uri => uri.path
    | .error _ => target
  match request arguments with
  | .ok (.run _ _ (.list target _ _)) | .ok (.run _ _ (.showFile target _))
  | .ok (.run _ _ (.tree target _ _)) | .ok (.run _ _ (.digest (some target) _ _)) =>
    some (pathOfTarget target)
  | .ok (.run _ _ (.digest none _ file)) => some file
  | _ => none

def locationOf (workingDirectory : Location) (path : String) : Location :=
  (Path.components path).foldl (fun here step =>
    match step with
    | .root => []
    | .current => here
    | .parent => here.dropLast
    | .name text => here ++ (FileName.ofText? text).toList) workingDirectory

def osError : IO.Error → OsError
  | .permissionDenied .. => .permissionDenied
  | .noSuchThing .. => .notFound
  | error => .other (toString error)

def picture (depth : Nat) (location : Location) (entry : IO.FS.DirEntry) :
    IO (List (Location × Object)) := do
  match depth with
  | 0 => return [(location, nowhere)]
  | depth + 1 =>
    if ← entry.path.isDir then
      match ← entry.path.readDir.toBaseIO with
      | .error error =>
        return [(location, .directoryWith { listing := .refused (osError error), search := none })]
      | .ok children =>
        let mut objects := [(location, Object.directory)]
        for child in children do
          match FileName.ofText? child.fileName with
          | none => continue
          | some name => objects := objects ++ (← picture depth (location ++ [name]) child)
        return objects
    else
      match ← (IO.FS.readBinFile entry.path).toBaseIO with
      | .ok bytes => return [(location, .file bytes.data.toList)]
      | .error error =>
        if ← entry.path.pathExists then return [(location, .closed (osError error))]
        else return [(location, nowhere)]

def entryAt (path : String) : IO.FS.DirEntry :=
  { root := ".", fileName := path }

def waypoints (path : String) : List String :=
  let steps := Path.components path
  (List.range steps.length).map fun count => Path.ofComponents (steps.take count)

def system (arguments : List String) : IO FileSystem := do
  let workingDirectory := locationOf [] (← IO.currentDir).toString
  let mut system : FileSystem :=
    { FileSystem.empty.place workingDirectory .directory with workingDirectory }
  match pathOf? arguments with
  | none => return system
  | some path =>
    for waypoint in waypoints path do
      let location := locationOf workingDirectory waypoint
      if !location.isEmpty && (← (entryAt waypoint).path.isDir) then
        system := system.place location .directory
    for (location, object) in ← picture depthLimit (locationOf workingDirectory path)
        (entryAt path) do
      if !location.isEmpty then system := system.place location object
    return system

end ArchiveBrowser.Main

open ArchiveBrowser in
def main (arguments : List String) : IO UInt32 := do
  let environment : Environment :=
    { logLevel := ← IO.getEnv Log.Config.levelVariable
      noColor := ← IO.getEnv Log.Config.noColorVariable }
  let report := Program.run (← Main.system arguments) environment arguments .unlimited
  (← IO.getStdout).write ⟨report.output.received.toArray⟩
  for line in report.log ++ report.complaint.toList do
    IO.eprintln line
  return UInt32.ofNat report.exitCode

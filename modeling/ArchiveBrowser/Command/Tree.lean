import ArchiveBrowser.Command.Target
import ArchiveBrowser.Tree.Visit

/-!
# Showing a tree

The start, what is below it, and the numbers of directories and files shown.
-/

set_option autoImplicit false

namespace ArchiveBrowser.Command

open Log

def treeHeader (path : String) : List Piece :=
  pieces .line [path, "\n"]

def treeSummary (drawing : Tree.Drawing) : List Piece :=
  pieces .line
    ["\n", toString drawing.directoryCount, " directories, ", toString drawing.fileCount,
      " files\n"]

def treePieces (path : String) (drawing : Tree.Drawing) : List Piece × Option Failure :=
  let upper := treeHeader path ++ pieces .drawing (drawing.lines.flatMap Tree.Line.texts)
  match drawing.ending with
  | .complete => (upper ++ treeSummary drawing, none)
  | .failed error => (upper, some (.archive error))
  | .tooDeep => (upper, some (.endless path))

def treeIn (archive : Archive) (path : String) (depth : Option Nat) (sink : Sink) : Outcome :=
  let (texts, failure) := treePieces path (Tree.drawing archive path depth)
  match print sink texts, failure with
  | (.ok _, sink), some failure => (.error failure, sink)
  | (printed, sink), _ => (printed, sink)

/-- What is logged in the course of a visit. After a write that fails nothing more is asked. -/
def visitEvents (archive : Archive) : (sink : Sink) → (acts : List Tree.Act) → List Event
  | _, [] => []
  | sink, .ask path :: rest => (archive.listing path).events ++ visitEvents archive sink rest
  | sink, .write line :: rest =>
    match print sink (pieces .drawing line.texts) with
    | (.ok _, sink) => visitEvents archive sink rest
    | (.error _, _) => []

def treeEvents (archive : Archive) (path : String) (depth : Option Nat) (sink : Sink) :
    List Event :=
  match print sink (treeHeader path) with
  | (.ok _, sink) => visitEvents archive sink (Tree.visiting archive path depth).acts
  | (.error _, _) => []

def tree (system : FileSystem) (target path : String) (depth : Option Nat) (sink : Sink) :
    Logged Outcome :=
  withArchive system target sink fun archive =>
    { value := treeIn archive path depth sink, events := treeEvents archive path depth sink }

end ArchiveBrowser.Command

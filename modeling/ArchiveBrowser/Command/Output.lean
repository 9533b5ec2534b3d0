import ArchiveBrowser.Error
import ArchiveBrowser.Stream.Sink

/-!
# Output of commands

A command writes a sequence of small texts, each by itself, until one of the writes
fails. What a failed write is taken for depends on what was being written.
-/

set_option autoImplicit false

namespace ArchiveBrowser.Command

inductive Stage where
  | line
  | drawing
  | document
  deriving DecidableEq

inductive Failure where
  | archive (error : Error)
  | output (fault : Fault)
  | document (fault : Fault)
  | noSuchFile (path target : String)
  /-- A tree in which no end is to be seen. -/
  | endless (path : String)
  deriving DecidableEq

def Failure.message : Failure → String
  | archive error => error.message
  | output fault | document fault => fault.message
  | noSuchFile path target => s!"{path}: no such file in {target}"
  | endless path => s!"{path}: no end of directories"

def Stage.failure : Stage → Fault → Failure
  | line, fault => .output fault
  | drawing, fault => .archive (.io fault)
  | document, fault => .document fault

structure Piece where
  stage : Stage
  text : String
  deriving DecidableEq

def pieces (stage : Stage) (texts : List String) : List Piece :=
  texts.map fun text => { stage, text }

def print (sink : Sink) : (texts : List Piece) → Except Failure Unit × Sink
  | [] => (.ok (), sink)
  | piece :: rest =>
    match sink.writeAll .bufferUnwritten (Bytes.ofText piece.text) with
    | (.ok _, sink) => print sink rest
    | (.error fault, sink) => (.error (piece.stage.failure fault), sink)

abbrev Outcome := Except Failure Unit × Sink

end ArchiveBrowser.Command

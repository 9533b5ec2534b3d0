import ArchiveBrowser.Command.File
import ArchiveBrowser.Command.List
import ArchiveBrowser.Command.Tree
import ArchiveBrowser.CommandLine.Request
import ArchiveBrowser.Log.Config

/-!
# The program

One run of the program, from its arguments, its environment and the file system to
its output, its log and its exit code.
-/

set_option autoImplicit false

namespace ArchiveBrowser

open CommandLine Log

structure Environment where
  logLevel : Option String
  noColor : Option String

structure Report where
  exitCode : Nat
  output : Sink
  log : List String
  complaint : Option String

namespace Program

def versionLine : String := "nxkit 0.3.0\n"

def usage : String :=
  "usage: nxkit [--log-level LEVEL] [--no-color] COMMAND\n" ++
  "  ls ARCHIVE [PATH] [--json] [--include PATTERN]... [--exclude PATTERN]...\n" ++
  "  cat ARCHIVE PATH\n" ++
  "  tree ARCHIVE [PATH] [--depth DEPTH]\n" ++
  "  hash FILE [--algo ALGORITHM] [--archive ARCHIVE]\n"

def perform (system : FileSystem) (invocation : Invocation) (sink : Sink) :
    Logged Command.Outcome :=
  match invocation with
  | .list target path options => Command.list system target path options sink
  | .showFile target path => Command.showFile system target path sink
  | .tree target path depth => Command.tree system target path depth sink
  | .digest target algorithm file => Command.digestFile system target algorithm file sink

/-- How the log is shown: the command line comes before the environment. -/
def logConfig (environment : Environment) (level : Option Level) (noColor : Bool) : Config :=
  let config := Config.ofEnvironment environment.logLevel environment.noColor
  { level := level.getD config.level, color := config.color && !noColor }

def saying (text : String) (sink : Sink) : Report :=
  { exitCode := 0
    output := (Command.print sink (Command.pieces .line [text])).2
    log := []
    complaint := none }

def run (system : FileSystem) (environment : Environment) (arguments : List String)
    (sink : Sink) : Report :=
  match request arguments with
  | .error error =>
    { exitCode := 2, output := sink, log := [], complaint := some error.message }
  | .ok .version => saying versionLine sink
  | .ok .help => saying usage sink
  | .ok (.run level noColor invocation) =>
    let config := logConfig environment level noColor
    let performed := perform system invocation sink
    let (outcome, sink) := performed.value
    let log := (performed.events.filter config.shows).map config.render
    match outcome with
    | .ok _ => { exitCode := 0, output := sink, log, complaint := none }
    | .error failure =>
      { exitCode := 1, output := sink, log, complaint := some ("Error: " ++ failure.message) }

end Program

end ArchiveBrowser

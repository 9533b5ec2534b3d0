import ArchiveBrowser.Command.List
import ArchiveBrowser.CommandLine.Grammar
import ArchiveBrowser.Digest.Algorithm
import ArchiveBrowser.Log.Level

/-!
# Requests

What a command line of the program asks for. Options about the log may stand before
the name of the command and behind it; there the later one counts.
-/

set_option autoImplicit false

namespace ArchiveBrowser.CommandLine

inductive Invocation where
  | list (target path : String) (options : Command.ListOptions)
  | showFile (target path : String)
  | tree (target path : String) (depth : Option Nat)
  | digest (target : Option String) (algorithm : Digest.Algorithm) (file : String)

inductive Request where
  | version
  | help
  | run (logLevel : Option Log.Level) (noColor : Bool) (invocation : Invocation)

structure Given where
  logLevel : Option Log.Level
  noColor : Bool
  json : Bool
  includes : List String
  excludes : List String
  depth : Option Nat
  algorithm : Option Digest.Algorithm
  archive : Option String
  operands : List String

namespace Given

def nothing : Given :=
  { logLevel := none
    noColor := false
    json := false
    includes := []
    excludes := []
    depth := none
    algorithm := none
    archive := none
    operands := [] }

end Given

/-- Reads a number: digits, before which there may be a plus sign. It has to fit into
64 bits. -/
def readCount? (text : String) : Option Nat :=
  let digits :=
    match text.toList with
    | '+' :: rest => rest
    | digits => digits
  if digits.isEmpty || !digits.all Char.isDigit then none
  else
    let value := digits.foldl (fun value digit => value * 10 + (digit.toNat - '0'.toNat)) 0
    if value < UInt64.size then some value else none

def onceMarked (option : String) (isMarked : Given → Bool) (note : Given → Given) : Action Given :=
  .mark fun given => if isMarked given then .error (.repeated option) else .ok (note given)

def onceTaken {α : Type} (option : String) (get : Given → Option α) (read? : String → Option α)
    (note : Given → α → Given) : Action Given :=
  .take fun text given =>
    if (get given).isSome then .error (.repeated option)
    else
      match read? text with
      | none => .error (.invalidValue option text)
      | some value => .ok (note given value)

def logLevelSwitch : Switch Given :=
  { short := none
    long := some "log-level"
    action := onceTaken "--log-level" Given.logLevel (fun text => (Log.Level.parse text).toOption)
      fun given level => { given with logLevel := some level } }

def noColorSwitch : Switch Given :=
  { short := none
    long := some "no-color"
    action := onceMarked "--no-color" Given.noColor fun given => { given with noColor := true } }

def helpSwitch : Switch Given :=
  { short := some 'h', long := some "help", action := .help }

def versionSwitch : Switch Given :=
  { short := some 'V', long := some "version", action := .version }

def jsonSwitch : Switch Given :=
  { short := some 'j'
    long := some "json"
    action := onceMarked "--json" Given.json fun given => { given with json := true } }

def includeSwitch : Switch Given :=
  { short := some 'I'
    long := some "include"
    action := .take fun text given => .ok { given with includes := given.includes ++ [text] } }

def excludeSwitch : Switch Given :=
  { short := some 'X'
    long := some "exclude"
    action := .take fun text given => .ok { given with excludes := given.excludes ++ [text] } }

def depthSwitch : Switch Given :=
  { short := some 'd'
    long := some "depth"
    action := onceTaken "--depth" Given.depth readCount?
      fun given depth => { given with depth := some depth } }

def algorithmSwitch : Switch Given :=
  { short := some 'a'
    long := some "algo"
    action := onceTaken "--algo" Given.algorithm
      (fun text => (Digest.Algorithm.parse text).toOption)
      fun given algorithm => { given with algorithm := some algorithm } }

def archiveSwitch : Switch Given :=
  { short := none
    long := some "archive"
    action := onceTaken "--archive" Given.archive some
      fun given archive => { given with archive := some archive } }

def commonSwitches : List (Switch Given) :=
  [logLevelSwitch, noColorSwitch, helpSwitch]

def noteOperand (limit : Nat) (operand : String) (given : Given) : Except UsageError Given :=
  if given.operands.length < limit then
    .ok { given with operands := given.operands ++ [operand] }
  else .error (.extraOperand operand)

def commandLevel (switches : List (Switch Given)) (operands : Nat) : Level Given :=
  { switches := switches ++ commonSwitches, operand := noteOperand operands, commands := [] }

def commandNames : List String :=
  ["ls", "cat", "tree", "hash"]

def helpName : String := "help"

def topLevel : Level Given :=
  { switches := versionSwitch :: commonSwitches
    operand := noteOperand 0
    commands := helpName :: commandNames }

def levelOf (command : String) : Level Given :=
  match command with
  | "ls" => commandLevel [jsonSwitch, includeSwitch, excludeSwitch] 2
  | "tree" => commandLevel [depthSwitch] 2
  | "hash" => commandLevel [algorithmSwitch, archiveSwitch] 1
  | _ => commandLevel [] 2

def rootPath : String := "/"

def invocation (command : String) (given : Given) : Except UsageError Invocation :=
  match command, given.operands with
  | "hash", file :: _ =>
    .ok (.digest given.archive (given.algorithm.getD .standard) file)
  | "hash", [] => .error (.missingOperand "FILE")
  | _, [] => .error (.missingOperand "ARCHIVE")
  | "ls", target :: rest =>
    let filter : Glob.Filter := { includes := given.includes, excludes := given.excludes }
    .ok (.list target (rest.headD rootPath) { asJson := given.json, filter })
  | "tree", target :: rest => .ok (.tree target (rest.headD rootPath) given.depth)
  | _, [_] => .error (.missingOperand "PATH")
  | _, target :: path :: _ => .ok (.showFile target path)

def commandRequest (command : String) (outer : Given) (arguments : List String) :
    Except UsageError Request :=
  match (levelOf command).read .nothing arguments with
  | .error error => .error error
  | .ok .version => .ok .version
  | .ok .help => .ok .help
  | .ok (.command ..) => .error .missingCommand
  | .ok (.all given) =>
    (invocation command given).map
      (.run (given.logLevel <|> outer.logLevel) (given.noColor || outer.noColor))

def request (arguments : List String) : Except UsageError Request :=
  match topLevel.read .nothing arguments with
  | .error error => .error error
  | .ok .version => .ok .version
  | .ok .help => .ok .help
  | .ok (.all _) => .error .missingCommand
  | .ok (.command name outer rest) =>
    if name = helpName then .ok .help else commandRequest name outer rest

end ArchiveBrowser.CommandLine

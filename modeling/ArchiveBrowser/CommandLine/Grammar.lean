/-!
# Command line grammars

A command line is read from left to right against a level of a grammar: options,
operands, and the names of further levels. An option is written `--long`, with its
value behind `=` or as the next argument, or in a cluster of short options, with
its value as the rest of the cluster or as the next argument. Behind `--` all
arguments are operands. An argument with a hyphen is never taken as the value of
the option before it.
-/

set_option autoImplicit false

namespace ArchiveBrowser.CommandLine

inductive UsageError where
  | unknownOption (option : String)
  | missingValue (option : String)
  | unneededValue (option : String)
  | repeated (option : String)
  | invalidValue (option value : String)
  | extraOperand (operand : String)
  | missingOperand (operand : String)
  | missingCommand
  deriving DecidableEq

def UsageError.message : UsageError → String
  | unknownOption option => s!"unexpected argument {option}"
  | missingValue option => s!"{option} needs a value"
  | unneededValue option => s!"{option} takes no value"
  | repeated option => s!"{option} is given more than once"
  | invalidValue option value => s!"{option} cannot be {value}"
  | extraOperand operand => s!"unexpected operand {operand}"
  | missingOperand operand => s!"{operand} is missing"
  | missingCommand => "a command is missing"

inductive Action (Given : Type) where
  | mark (note : Given → Except UsageError Given)
  | take (note : (value : String) → Given → Except UsageError Given)
  | version
  | help

structure Switch (Given : Type) where
  short : Option Char
  long : Option String
  action : Action Given

structure Level (Given : Type) where
  switches : List (Switch Given)
  operand : (operand : String) → Given → Except UsageError Given
  commands : List String

inductive Ending (Given : Type) where
  | all (given : Given)
  | command (name : String) (given : Given) (rest : List String)
  | version
  | help

structure State (Given : Type) where
  given : Given
  /-- An option that waits for its value. -/
  pending : Option (String × ((value : String) → Given → Except UsageError Given))
  /-- There are only operands to come. -/
  isEscaped : Bool

inductive Progress (Given : Type) where
  | proceed (state : State Given)
  | ended (ending : Ending Given)

variable {Given : Type}

namespace State

def settled (state : State Given) (given : Given) : State Given :=
  { state with given, pending := none }

/-- An option cannot start while another waits for its value. -/
def notWaiting (state : State Given) : Except UsageError Unit :=
  match state.pending with
  | some (option, _) => .error (.missingValue option)
  | none => .ok ()

def readSwitch (state : State Given) (written : String) (action : Action Given)
    (attached : Option String) : Except UsageError (Progress Given) :=
  match action, attached with
  | .take note, some value => do
    state.notWaiting
    let given ← note value state.given
    .ok (.proceed (state.settled given))
  | .take note, none => do
    state.notWaiting
    .ok (.proceed { state with pending := some (written, note) })
  | _, some _ => .error (.unneededValue written)
  | .mark note, none => do
    state.notWaiting
    let given ← note state.given
    .ok (.proceed (state.settled given))
  | .version, none => do
    state.notWaiting
    .ok (.ended .version)
  | .help, none => do
    state.notWaiting
    .ok (.ended .help)

/-- Reads what follows the two hyphens of a long option. -/
def readLong (state : State Given) (level : Level Given) (body : List Char) :
    Except UsageError (Progress Given) :=
  let name := String.ofList (body.takeWhile (· != '='))
  let attached :=
    match body.dropWhile (· != '=') with
    | [] => none
    | _ :: value => some (String.ofList value)
  match level.switches.find? (·.long = some name) with
  | none => .error (.unknownOption ("--" ++ name))
  | some switch => state.readSwitch ("--" ++ name) switch.action attached

def readCluster (state : State Given) (level : Level Given) : (letters : List Char) →
    Except UsageError (Progress Given)
  | [] => .ok (.proceed state)
  | letter :: rest =>
    let written := String.ofList ['-', letter]
    match level.switches.find? (·.short = some letter) with
    | none => .error (.unknownOption written)
    | some switch =>
      match switch.action, rest with
      | .take _, [] => state.readSwitch written switch.action none
      | .take _, '=' :: value => state.readSwitch written switch.action (some (String.ofList value))
      | .take _, value => state.readSwitch written switch.action (some (String.ofList value))
      | action, rest =>
        match state.readSwitch written action none with
        | .error error => .error error
        | .ok (.ended ending) => .ok (.ended ending)
        | .ok (.proceed state) => state.readCluster level rest

/-- Reads an argument that is no option: the value that is waited for, or an operand. -/
def readPlain (state : State Given) (level : Level Given) (argument : String) :
    Except UsageError (Progress Given) :=
  match state.pending with
  | some (_, note) => do
    let given ← note argument state.given
    .ok (.proceed (state.settled given))
  | none => do
    let given ← level.operand argument state.given
    .ok (.proceed (state.settled given))

def readArgument (state : State Given) (level : Level Given) (argument : String) :
    Except UsageError (Progress Given) :=
  if state.isEscaped then state.readPlain level argument
  else
    match argument.toList with
    | '-' :: '-' :: [] => do
      state.notWaiting
      .ok (.proceed { state with isEscaped := true })
    | '-' :: '-' :: body => state.readLong level body
    | '-' :: letter :: rest => state.readCluster level (letter :: rest)
    | _ => state.readPlain level argument

def leads (state : State Given) (level : Level Given) (argument : String) : Bool :=
  !state.isEscaped && state.pending.isNone && level.commands.contains argument

end State

namespace Level

def readFrom (level : Level Given) (state : State Given) : (arguments : List String) →
    Except UsageError (Ending Given)
  | [] => do
    state.notWaiting
    .ok (.all state.given)
  | argument :: rest =>
    if state.leads level argument then .ok (.command argument state.given rest)
    else
      match state.readArgument level argument with
      | .error error => .error error
      | .ok (.ended ending) => .ok ending
      | .ok (.proceed state) => level.readFrom state rest

def read (level : Level Given) (given : Given) (arguments : List String) :
    Except UsageError (Ending Given) :=
  level.readFrom { given, pending := none, isEscaped := false } arguments

end Level

end ArchiveBrowser.CommandLine

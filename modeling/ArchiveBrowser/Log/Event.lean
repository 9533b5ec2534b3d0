import ArchiveBrowser.Log.Level
import ArchiveBrowser.Text.Quoted

/-!
# Log events

An event is a label, a message and named fields in a fixed order. A field is
shown as it is, quoted, or as a number. `Logged` is a value together with the
events of its computation, in the order in which they happened.
-/

set_option autoImplicit false

namespace ArchiveBrowser.Log

inductive FieldValue where
  | plain (text : String)
  | quoted (text : String)
  | number (value : Nat)
  deriving DecidableEq

def FieldValue.render : FieldValue → String
  | plain text => text
  | quoted text => Text.quoted text
  | number value => toString value

structure Event where
  label : Label
  message : String
  fields : List (String × FieldValue)
  deriving DecidableEq

namespace Event

def debug (message : String) (fields : List (String × FieldValue)) : Event :=
  { label := .debug, message, fields }

/-- An event about a failure that the caller is only told of as an absence. -/
def warn (message : String) (fields : List (String × FieldValue)) : Event :=
  { label := .warn, message, fields }

def render (event : Event) : String :=
  let fields := event.fields.map fun (name, value) => s!" {name}={value.render}"
  event.label.name ++ " " ++ event.message ++ String.join fields

def styled (style : String) (text : String) : String :=
  s!"\x1b[{style}m{text}\x1b[0m"

def labelStyle : Label → String
  | .debug => "34"
  | .info => "32"
  | .warn => "33"
  | .error => "31"

def renderStyled (event : Event) : String :=
  let fields := event.fields.map fun (name, value) =>
    " " ++ styled "3" name ++ styled "2" "=" ++ value.render
  styled (labelStyle event.label) event.label.name ++ " " ++ event.message ++ String.join fields

end Event

structure Logged (α : Type) where
  value : α
  events : List Event

namespace Logged

variable {α β : Type}

def quiet (value : α) : Logged α :=
  { value, events := [] }

def map (f : α → β) (logged : Logged α) : Logged β :=
  { value := f logged.value, events := logged.events }

def andThen (logged : Logged α) (next : α → Logged β) : Logged β :=
  let later := next logged.value
  { value := later.value, events := logged.events ++ later.events }

end Logged

end ArchiveBrowser.Log

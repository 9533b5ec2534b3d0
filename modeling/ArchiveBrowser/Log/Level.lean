import ArchiveBrowser.Text.Blank

/-!
# Log levels

Five severities in increasing order, the names by which they are read, and the
four labels under which events are written.
-/

set_option autoImplicit false

namespace ArchiveBrowser.Log

inductive Level where
  | debug
  | info
  | warning
  | error
  | critical
  deriving DecidableEq

inductive Label where
  | debug
  | info
  | warn
  | error
  deriving DecidableEq

namespace Label

def name : Label → String
  | debug => "DEBUG"
  | info => "INFO"
  | warn => "WARN"
  | error => "ERROR"

def rank : Label → Nat
  | debug => 0
  | info => 1
  | warn => 2
  | error => 3

end Label

namespace Level

def standard : Level := warning

def name : Level → String
  | debug => "debug"
  | info => "info"
  | warning => "warning"
  | error => "error"
  | critical => "critical"

def rank : Level → Nat
  | debug => 0
  | info => 1
  | warning => 2
  | error => 3
  | critical => 4

def compare (left right : Level) : Ordering :=
  Ord.compare left.rank right.rank

def label : Level → Label
  | debug => .debug
  | info => .info
  | warning => .warn
  | error | critical => .error

/-- The trimmed and lower-cased text that names no level. -/
structure Unknown where
  text : String
  deriving DecidableEq

def Unknown.message (unknown : Unknown) : String :=
  s!"unknown log level: {unknown.text}"

/-- Reads a level, whatever blanks surround it and whatever the case of its letters. -/
def parse (text : String) : Except Unknown Level :=
  match (Text.trim text).toLower with
  | "debug" | "trace" => .ok debug
  | "info" => .ok info
  | "warn" | "warning" => .ok warning
  | "error" => .ok error
  | "critical" | "fatal" => .ok critical
  | other => .error ⟨other⟩

end Level

end ArchiveBrowser.Log

import ArchiveBrowser.Path.Segments

/-!
# Components of file system paths

What the parts of a path mean to a file system, as far as the text tells: repeated
and trailing slashes vanish, and so does `.` except at the start of a relative
path. Nothing is looked up, so `..` stays.
-/

set_option autoImplicit false

namespace ArchiveBrowser.Path

inductive Component where
  | root
  | current
  | parent
  | name (text : String)
  deriving DecidableEq

def Component.text : Component → String
  | root => "/"
  | current => "."
  | parent => ".."
  | name text => text

/-- What a piece means that is not at the start of a relative path. -/
def innerComponent? (piece : String) : Option Component :=
  if piece = "" || piece = "." then none
  else if piece = ".." then some .parent
  else some (.name piece)

def components (path : String) : List Component :=
  let parts := pieces path
  let inner := parts.filterMap innerComponent?
  if isAbsolute path then .root :: inner
  else if parts.head? = some "." then .current :: inner
  else inner

/-- Goes from `path` to `next`: an absolute `next` replaces it, any other is set apart
by a slash where there is something without one at its end. -/
def push (path next : String) : String :=
  if isAbsolute next then next
  else if path.isEmpty || endsWithSeparator path then path ++ next
  else path ++ "/" ++ next

def ofComponents (steps : List Component) : String :=
  steps.foldl (fun path step => push path step.text) ""

def commonLength : List Component → List Component → Nat
  | first :: rest, other :: others => if first = other then commonLength rest others + 1 else 0
  | _, _ => 0

/-- How to get from `base` to `path`: out of what is left of `base` after the common
beginning, and into what is left of `path`. -/
def relative (path base : String) : String :=
  let target := components path
  let start := components base
  let common := commonLength target start
  let steps := List.replicate (start.length - common) Component.parent ++ target.drop common
  if steps.isEmpty then "." else ofComponents steps

def ancestors (path : String) : List String :=
  let steps := components path
  path :: (List.range steps.length).reverse.map fun count => ofComponents (steps.take count)

end ArchiveBrowser.Path

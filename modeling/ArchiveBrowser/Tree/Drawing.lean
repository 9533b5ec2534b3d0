import ArchiveBrowser.Archive.Basic
import ArchiveBrowser.Path.Parts

/-!
# Drawings of trees

What is below a path of an archive, one line for each entry: an entry comes before
those below it, and siblings are in increasing order. A line knows whether it is
the last of its siblings, and the same of each entry above it.

The archive is asked level by level for a bounded number of levels. Whether the
bound is one that was asked for or one that no archive of this kind should reach
makes a difference only when there are more levels.
-/

set_option autoImplicit false

namespace ArchiveBrowser.Tree

structure Line where
  /-- For each entry above, outermost first, whether it is the last of its siblings. -/
  above : List Bool
  isLast : Bool
  name : String
  isDirectory : Bool
  deriving DecidableEq

namespace Line

def rail (isLast : Bool) : String :=
  if isLast then "    " else "│   "

def connector (isLast : Bool) : String :=
  if isLast then "└── " else "├── "

def texts (line : Line) : List String :=
  [String.join (line.above.map rail), connector line.isLast, line.name,
    if line.isDirectory then "/\n" else "\n"]

def render (line : Line) : String :=
  String.join line.texts

end Line

inductive Ending where
  | complete
  | failed (error : Error)
  /-- There are more levels than there should be. -/
  | tooDeep
  deriving DecidableEq

structure Drawing where
  lines : List Line
  ending : Ending
  deriving DecidableEq

namespace Drawing

def ended (ending : Ending) : Drawing :=
  { lines := [], ending }

/-- One drawing under the other, unless the first ends before its time. -/
def above (upper lower : Drawing) : Drawing :=
  match upper.ending with
  | .complete => { lines := upper.lines ++ lower.lines, ending := lower.ending }
  | _ => upper

def under (line : Line) (drawing : Drawing) : Drawing :=
  { drawing with lines := line :: drawing.lines }

def directoryCount (drawing : Drawing) : Nat :=
  drawing.lines.countP (·.isDirectory)

def fileCount (drawing : Drawing) : Nat :=
  drawing.lines.countP (!·.isDirectory)

end Drawing

def drawEntries (archive : Archive) (below : (path : String) → (above : List Bool) → Drawing)
    (directory : String) (above : List Bool) : (names : List String) → Drawing
  | [] => .ended .complete
  | name :: rest =>
    let path := Path.child directory name
    let isLast := rest.isEmpty
    match archive.isDirectory path with
    | .error error => .ended (.failed error)
    | .ok isDirectory =>
      let drawn := if isDirectory then below path (above ++ [isLast]) else .ended .complete
      (drawn.under { above, isLast, name, isDirectory }).above
        (drawEntries archive below directory above rest)

/-- What is below a path, in so many levels; `beyond` is the ending where there are
no levels left. -/
def draw (archive : Archive) (beyond : Ending) : (levels : Nat) → (path : String) →
    (above : List Bool) → Drawing
  | 0, _, _ => .ended beyond
  | levels + 1, path, above =>
    match archive.sortedChildren path with
    | .error error => .ended (.failed error)
    | .ok names => drawEntries archive (draw archive beyond levels) path above names

def drawing (archive : Archive) (path : String) (depth : Option Nat) : Drawing :=
  match depth with
  | some depth => draw archive .complete depth path []
  | none => draw archive .tooDeep archive.height path []

end ArchiveBrowser.Tree

import ArchiveBrowser.Tree.Drawing

/-!
# Visits of trees

What is done while a tree is drawn, one thing after the other: an archive is asked what it
lists, or a line is written. What a visit writes is the drawing; what it asks decides what is
logged, up to the first write that fails.
-/

set_option autoImplicit false

namespace ArchiveBrowser.Tree

inductive Act where
  | ask (path : String)
  | write (line : Line)

def Act.line? : Act → Option Line
  | ask _ => none
  | write line => some line

structure Visit where
  acts : List Act
  ending : Ending

namespace Visit

def ended (ending : Ending) : Visit :=
  { acts := [], ending }

def after (acts : List Act) (visit : Visit) : Visit :=
  { visit with acts := acts ++ visit.acts }

/-- One visit and then the other, unless the first ends before its time. -/
def before (first second : Visit) : Visit :=
  match first.ending with
  | .complete => { acts := first.acts ++ second.acts, ending := second.ending }
  | _ => first

def drawing (visit : Visit) : Drawing :=
  { lines := visit.acts.filterMap Act.line?, ending := visit.ending }

end Visit

def visitEntries (archive : Archive) (below : (path : String) → (above : List Bool) → Visit)
    (directory : String) (above : List Bool) : (names : List String) → Visit
  | [] => .ended .complete
  | name :: rest =>
    let path := Path.child directory name
    let isLast := rest.isEmpty
    match archive.isDirectory path with
    | .error error => .after [.ask path] (.ended (.failed error))
    | .ok isDirectory =>
      let visited := if isDirectory then below path (above ++ [isLast]) else .ended .complete
      (visited.after [.ask path, .write { above, isLast, name, isDirectory }]).before
        (visitEntries archive below directory above rest)

def visit (archive : Archive) (beyond : Ending) : (levels : Nat) → (path : String) →
    (above : List Bool) → Visit
  | 0, _, _ => .ended beyond
  | levels + 1, path, above =>
    match archive.sortedChildren path with
    | .error error => .after [.ask path] (.ended (.failed error))
    | .ok names =>
      .after [.ask path] (visitEntries archive (visit archive beyond levels) path above names)

def visiting (archive : Archive) (path : String) (depth : Option Nat) : Visit :=
  match depth with
  | some depth => visit archive .complete depth path []
  | none => visit archive .tooDeep archive.height path []

end ArchiveBrowser.Tree

import ArchiveBrowser.Tree.Visit

/-!
# What a visit writes

Without what it asks in between, a visit is the drawing: the same lines, and the same ending.
-/

set_option autoImplicit false

namespace ArchiveBrowser.Tree

namespace Visit

theorem drawing_ended (ending : Ending) : (ended ending).drawing = .ended ending := rfl

theorem drawing_after_ask (path : String) (visit : Visit) :
    (visit.after [.ask path]).drawing = visit.drawing := rfl

theorem drawing_after_entry (path : String) (line : Line) (visit : Visit) :
    (visit.after [.ask path, .write line]).drawing = visit.drawing.under line := rfl

theorem drawing_before (first second : Visit) :
    (first.before second).drawing = first.drawing.above second.drawing := by
  have ending : first.drawing.ending = first.ending := rfl
  unfold before Drawing.above
  rw [ending]
  cases first.ending with
  | complete => simp only [drawing, List.filterMap_append]
  | failed error => rfl
  | tooDeep => rfl

end Visit

variable {archive : Archive}

theorem drawing_visit_entries {below : String → List Bool → Visit} (directory : String)
    (above : List Bool) (names : List String) :
    (visitEntries archive below directory above names).drawing =
      drawEntries archive (fun path above => (below path above).drawing) directory above names := by
  induction names with
  | nil => rfl
  | cons name rest ih =>
      rw [visitEntries, drawEntries]
      cases archive.isDirectory (Path.child directory name) with
      | error error => rfl
      | ok isDirectory =>
          dsimp only
          rw [Visit.drawing_before, Visit.drawing_after_entry, ih]
          cases isDirectory <;> rfl

theorem drawing_visit (beyond : Ending) (levels : Nat) (path : String) (above : List Bool) :
    (visit archive beyond levels path above).drawing = draw archive beyond levels path above := by
  induction levels generalizing path above with
  | zero => rfl
  | succ levels ih =>
      have same : (fun path above => (visit archive beyond levels path above).drawing) =
          draw archive beyond levels := by
        funext path above
        exact ih path above
      rw [visit, draw]
      cases archive.sortedChildren path with
      | error error => rfl
      | ok names =>
          dsimp only
          rw [Visit.drawing_after_ask, drawing_visit_entries, same]

/-- A visit writes the lines of the drawing and ends as it does. -/
theorem drawing_visiting (archive : Archive) (path : String) (depth : Option Nat) :
    (visiting archive path depth).drawing = drawing archive path depth := by
  cases depth with
  | none => exact drawing_visit .tooDeep archive.height path []
  | some depth => exact drawing_visit .complete depth path []

end ArchiveBrowser.Tree

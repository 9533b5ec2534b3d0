import ArchiveBrowser.Proofs.Archive.Order
import ArchiveBrowser.Tree.Drawing

/-!
# The levels of a drawing

A drawing that did not run out of levels is the same with more of them, so that a tree has one
drawing or none, however many levels are tried. A drawing is made from sorted listings and from
which paths are directories, and from nothing else of the archive.
-/

set_option autoImplicit false

namespace ArchiveBrowser.Tree

namespace Drawing

theorem above_ended {upper lower : Drawing} (ended : (upper.above lower).ending ≠ .tooDeep) :
    upper.ending ≠ .tooDeep ∧ (upper.ending = .complete → lower.ending ≠ .tooDeep) := by
  unfold above at ended
  split at ended
  · rename_i complete
    rw [complete]
    exact ⟨nofun, fun _ => ended⟩
  · rename_i cut
    exact ⟨ended, fun complete => absurd complete cut⟩

theorem ended_above {upper lower : Drawing} (first : upper.ending ≠ .tooDeep)
    (second : lower.ending ≠ .tooDeep) : (upper.above lower).ending ≠ .tooDeep := by
  unfold above
  split
  · exact second
  · exact first

theorem above_congr {upper lower other : Drawing}
    (same : upper.ending = .complete → lower = other) : upper.above lower = upper.above other := by
  unfold above
  split
  · rename_i complete
    rw [same complete]
  · rfl

end Drawing

/-! ## More levels -/

variable {archive : Archive}

/-- A path that the archive does not list ends its drawing, unless nothing is drawn anyway. -/
theorem draw_refused {path : String} {error : Error} (refused : archive.list path = .error error)
    (beyond : Ending) {levels : Nat} (positive : 0 < levels) (lasts : List Bool) :
    draw archive beyond levels path lasts = .ended (.failed error) := by
  cases levels with
  | zero => cases positive
  | succ levels =>
      rw [draw, Archive.sorted_children_eq, refused]
      rfl

/-- What is drawn for a listing stays the same if what is drawn below it does, wherever that
did not run out of levels. -/
theorem draw_entries_more {below deeper : String → List Bool → Drawing}
    (kept : ∀ path lasts, (below path lasts).ending ≠ .tooDeep →
      deeper path lasts = below path lasts)
    {directory : String} {lasts : List Bool} {names : List String}
    (ended : (drawEntries archive below directory lasts names).ending ≠ .tooDeep) :
    drawEntries archive deeper directory lasts names =
      drawEntries archive below directory lasts names := by
  induction names with
  | nil => rfl
  | cons name rest ih =>
      simp only [drawEntries] at ended ⊢
      cases told : archive.isDirectory (Path.child directory name) with
      | error error => rfl
      | ok isDirectory =>
          rw [told] at ended
          obtain ⟨upper, lower⟩ := Drawing.above_ended ended
          cases isDirectory with
          | false => exact Drawing.above_congr fun complete => ih (lower complete)
          | true =>
              simp only [if_true] at upper lower ⊢
              rw [kept _ _ upper]
              exact Drawing.above_congr fun complete => ih (lower complete)

/-- What is drawn for a listing has levels enough if what is drawn below each name has. -/
theorem draw_entries_ended {below : String → List Bool → Drawing} {directory : String}
    {names : List String} (ended : ∀ name ∈ names, ∀ lasts,
      (below (Path.child directory name) lasts).ending ≠ .tooDeep) (lasts : List Bool) :
    (drawEntries archive below directory lasts names).ending ≠ .tooDeep := by
  induction names with
  | nil => exact nofun
  | cons name rest ih =>
      have later := ih fun other member => ended other (List.mem_cons_of_mem name member)
      simp only [drawEntries]
      cases archive.isDirectory (Path.child directory name) with
      | error error => exact nofun
      | ok isDirectory =>
          apply Drawing.ended_above _ later
          cases isDirectory with
          | false => exact nofun
          | true => exact ended name List.mem_cons_self _

theorem draw_more {levels : Nat} {path : String} {lasts : List Bool}
    (ended : (draw archive .tooDeep levels path lasts).ending ≠ .tooDeep) (beyond : Ending)
    (more : Nat) :
    draw archive beyond (levels + more) path lasts = draw archive .tooDeep levels path lasts := by
  induction levels generalizing path lasts with
  | zero => exact absurd rfl ended
  | succ levels ih =>
      have next : levels + 1 + more = levels + more + 1 := Nat.add_right_comm levels 1 more
      rw [next]
      simp only [draw] at ended ⊢
      cases asked : archive.sortedChildren path with
      | error error => rfl
      | ok names =>
          rw [asked] at ended
          exact draw_entries_more (fun path lasts kept => ih kept) ended

/-- The drawing to which the tree below a path comes: with a depth it is cut there, and without
one there are levels enough. -/
def Yields (archive : Archive) (path : String) (depth : Option Nat) (drawing : Drawing) : Prop :=
  match depth with
  | some depth => draw archive .complete depth path [] = drawing
  | none => drawing.ending ≠ .tooDeep ∧ ∃ levels, draw archive .tooDeep levels path [] = drawing

theorem Yields.unique {path : String} {depth : Option Nat} {drawing other : Drawing}
    (yields : Yields archive path depth drawing) (also : Yields archive path depth other) :
    drawing = other := by
  cases depth with
  | some depth => exact yields.symm.trans also
  | none =>
      obtain ⟨ended, levels, rfl⟩ := yields
      obtain ⟨otherEnded, otherLevels, rfl⟩ := also
      rcases Nat.le_total levels otherLevels with fewer | fewer
      · obtain ⟨more, rfl⟩ := Nat.exists_eq_add_of_le fewer
        exact (draw_more ended .tooDeep more).symm
      · obtain ⟨more, rfl⟩ := Nat.exists_eq_add_of_le fewer
        exact draw_more otherEnded .tooDeep more

theorem yields_drawing {path : String} {depth : Option Nat}
    (ended : depth = none → (drawing archive path none).ending ≠ .tooDeep) :
    Yields archive path depth (drawing archive path depth) := by
  cases depth with
  | some depth => rfl
  | none => exact ⟨ended rfl, archive.height, rfl⟩

/-! ## Other orders -/

variable {first second : Archive}

theorem draw_entries_of_agrees (agrees : first.AgreesUpToOrder second)
    (below : String → List Bool → Drawing) (directory : String) (lasts : List Bool)
    (names : List String) :
    drawEntries first below directory lasts names =
      drawEntries second below directory lasts names := by
  induction names with
  | nil => rfl
  | cons name rest ih => simp only [drawEntries, agrees.is_directory, ih]

theorem draw_of_agrees (agrees : first.AgreesUpToOrder second) (beyond : Ending) (levels : Nat) :
    draw first beyond levels = draw second beyond levels := by
  induction levels with
  | zero => rfl
  | succ levels ih =>
      funext path lasts
      simp only [draw, agrees.sorted_children, ih, draw_entries_of_agrees agrees]

theorem yields_of_agrees (agrees : first.AgreesUpToOrder second) (path : String)
    (depth : Option Nat) (drawing : Drawing) :
    Yields first path depth drawing ↔ Yields second path depth drawing := by
  cases depth <;> simp only [Yields, draw_of_agrees agrees]

theorem drawing_of_agrees (agrees : first.AgreesUpToOrder second) {path : String}
    {depth : Option Nat} (ended : depth = none → (drawing first path none).ending ≠ .tooDeep)
    (alsoEnded : depth = none → (drawing second path none).ending ≠ .tooDeep) :
    drawing first path depth = drawing second path depth :=
  ((yields_of_agrees agrees path depth _).mp (yields_drawing ended)).unique
    (yields_drawing alsoEnded)

end ArchiveBrowser.Tree

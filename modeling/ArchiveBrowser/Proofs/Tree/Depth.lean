import ArchiveBrowser.Proofs.Tree.Calls
import ArchiveBrowser.Proofs.Tree.Levels
import ArchiveBrowser.Proofs.Tree.Lines
import Mathlib.Data.List.MinMax

/-!
# Drawings that are cut at a depth

A line is as many levels below the start as there are entries above it, and one. What is drawn
to a depth are the lines on the levels up to it of the drawing that is not cut, provided that
this one is complete: every entry keeps its place among its siblings whatever is drawn below it.
-/

set_option autoImplicit false

namespace ArchiveBrowser.Tree

namespace Drawing

def upTo (drawing : Drawing) (level : Nat) : Drawing :=
  { drawing with lines := drawing.lines.filter fun line => line.level ≤ level }

def height (drawing : Drawing) : Nat :=
  (drawing.lines.map Line.level).foldr max 0

variable (upper lower drawing : Drawing)

theorem up_to_above (level : Nat) :
    (upper.above lower).upTo level = (upper.upTo level).above (lower.upTo level) := by
  cases ended : upper.ending <;> simp [above, upTo, ended]

theorem up_to_under {line : Line} {level : Nat} (kept : line.level ≤ level) :
    (drawing.under line).upTo level = (drawing.upTo level).under line := by
  have first : (line :: drawing.lines).filter (fun line => line.level ≤ level) =
      line :: drawing.lines.filter fun line => line.level ≤ level :=
    List.filter_cons_of_pos (decide_eq_true kept)
  simp only [under, upTo, first]

theorem level_le_height {line : Line} (member : line ∈ drawing.lines) :
    line.level ≤ drawing.height :=
  List.le_max_of_le (List.mem_map_of_mem member) (Nat.le_refl line.level)

theorem up_to_height {level : Nat} (low : drawing.height ≤ level) : drawing.upTo level = drawing := by
  have all : drawing.lines.filter (fun line => line.level ≤ level) = drawing.lines := by
    rw [List.filter_eq_self]
    intro line member
    exact decide_eq_true (Nat.le_trans (drawing.level_le_height member) low)
  rw [upTo, all]

end Drawing

variable {archive : Archive}

theorem lines_of_above {upper lower : Drawing} {line : Line}
    (member : line ∈ (upper.above lower).lines) : line ∈ upper.lines ∨ line ∈ lower.lines := by
  unfold Drawing.above at member
  split at member
  · exact List.mem_append.mp member
  · exact .inl member

/-- Whatever is drawn below a path has a line below those above it. -/
theorem level_of_entries {below : String → List Bool → Drawing}
    (deeper : ∀ path lasts, ∀ line ∈ (below path lasts).lines, lasts.length < line.level)
    {directory : String} {lasts : List Bool} {names : List String} :
    ∀ line ∈ (drawEntries archive below directory lasts names).lines,
      lasts.length < line.level := by
  induction names with
  | nil => exact nofun
  | cons name rest ih =>
      intro line member
      simp only [drawEntries] at member
      cases told : archive.isDirectory (Path.child directory name) with
      | error error =>
          rw [told] at member
          cases member
      | ok isDirectory =>
          rw [told] at member
          rcases lines_of_above member with own | later
          · rcases List.mem_cons.mp own with rfl | inside
            · exact Nat.lt_succ_self lasts.length
            · cases isDirectory with
              | false => cases inside
              | true =>
                  have far := deeper _ _ line inside
                  rw [List.length_append] at far
                  exact Nat.lt_of_succ_lt far
          · exact ih line later

theorem level_of_draw (beyond : Ending) (levels : Nat) (path : String) (lasts : List Bool) :
    ∀ line ∈ (draw archive beyond levels path lasts).lines, lasts.length < line.level := by
  induction levels generalizing path lasts with
  | zero =>
      intro line member
      cases member
  | succ levels ih =>
      simp only [draw]
      cases archive.sortedChildren path with
      | error error =>
          intro line member
          cases member
      | ok names => exact level_of_entries ih

/-! ## Cutting at a depth -/

theorem draw_entries_cut {below cut : String → List Bool → Drawing} {lasts : List Bool} {level : Nat}
    (inside : lasts.length < level)
    (same : ∀ path isLast, (below path (lasts ++ [isLast])).ending = .complete →
      cut path (lasts ++ [isLast]) = (below path (lasts ++ [isLast])).upTo level)
    {directory : String} {names : List String}
    (complete : (drawEntries archive below directory lasts names).ending = .complete) :
    drawEntries archive cut directory lasts names =
      (drawEntries archive below directory lasts names).upTo level := by
  induction names with
  | nil => rfl
  | cons name rest ih =>
      simp only [drawEntries] at complete ⊢
      cases told : archive.isDirectory (Path.child directory name) with
      | error error => rfl
      | ok isDirectory =>
          rw [told] at complete
          obtain ⟨upper, lower⟩ := (Drawing.above_complete _ _).mp complete
          simp only [Drawing.up_to_above]
          rw [Drawing.up_to_under _ inside, ih lower]
          cases isDirectory with
          | false => rfl
          | true => rw [if_pos rfl, if_pos rfl, same _ _ upper]

/-- A drawing that is complete and one that is cut at a depth differ in the lines beyond it. -/
theorem draw_cut {levels : Nat} (depth : Nat) {path : String} {lasts : List Bool}
    (complete : (draw archive .tooDeep levels path lasts).ending = .complete) :
    draw archive .complete depth path lasts =
      (draw archive .tooDeep levels path lasts).upTo (lasts.length + depth) := by
  -- On the depth; the levels of the whole drawing cannot run out before it, as that is complete.
  induction depth generalizing levels path lasts with
  | zero =>
      have none : (draw archive .tooDeep levels path lasts).lines.filter
          (fun line => line.level ≤ lasts.length + 0) = [] := by
        rw [List.filter_eq_nil_iff]
        intro line member
        have far := level_of_draw .tooDeep levels path lasts line member
        simpa using far
      rw [Drawing.upTo, none, complete]
      rfl
  | succ depth ih =>
      cases levels with
      | zero => cases complete
      | succ levels =>
          simp only [draw] at complete ⊢
          cases asked : archive.sortedChildren path with
          | error error => rfl
          | ok names =>
              rw [asked] at complete
              refine draw_entries_cut (Nat.lt_add_of_pos_right (Nat.succ_pos depth)) ?_ complete
              intro path isLast ended
              rw [ih ended, List.length_append, List.length_singleton, Nat.add_assoc,
                Nat.add_comm 1 depth]

theorem Yields.cut {path : String} {full : Drawing} (yields : Yields archive path none full)
    (complete : full.ending = .complete) (depth : Nat) :
    drawing archive path (some depth) = full.upTo depth := by
  obtain ⟨-, levels, rfl⟩ := yields
  have cut := draw_cut depth complete
  rwa [List.length_nil, Nat.zero_add] at cut

/-! ## Counting the depth down -/

/-- One drawing with a depth and without: where it goes below a directory a depth is counted down
by `fewer`. It goes on for so many rounds at most. -/
def countDown (archive : Archive) (fewer : Nat → Nat) : (rounds : Nat) →
    (depth : Option Nat) → (path : String) → (above : List Bool) → Drawing
  | 0, _, _, _ => .ended .tooDeep
  | rounds + 1, depth, path, above =>
    if depth = some 0 then .ended .complete
    else
      match archive.sortedChildren path with
      | .error error => .ended (.failed error)
      | .ok names =>
        drawEntries archive (countDown archive fewer rounds (depth.map fewer)) path above names

theorem count_down_limitless (fewer : Nat → Nat) (rounds : Nat) :
    countDown archive fewer rounds none = draw archive .tooDeep rounds := by
  induction rounds with
  | zero => rfl
  | succ rounds ih =>
      funext path above
      rw [countDown, if_neg nofun, Option.map_none, ih]
      rfl

/-- Nothing is ever taken from a depth of 0, so that it does not matter what that would give. -/
theorem count_down_limited {fewer : Nat → Nat} (one : ∀ count, fewer (count + 1) = count)
    {rounds depth : Nat} (enough : depth < rounds) :
    countDown archive fewer rounds (some depth) = draw archive .complete depth := by
  induction rounds generalizing depth with
  | zero => cases enough
  | succ rounds ih =>
      funext path above
      cases depth with
      | zero => rw [countDown, if_pos rfl, draw]
      | succ depth =>
          have next : countDown archive fewer rounds (some depth) = draw archive .complete depth :=
            ih (Nat.lt_of_succ_lt_succ enough)
          rw [countDown, if_neg (by simp), Option.map_some, one, next]
          rfl

end ArchiveBrowser.Tree

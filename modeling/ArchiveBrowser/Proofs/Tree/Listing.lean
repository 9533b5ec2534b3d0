import ArchiveBrowser.Proofs.Tree.Calls
import ArchiveBrowser.Proofs.Tree.Levels
import ArchiveBrowser.Proofs.Tree.Lines

/-!
# Trees of entries

What there is below a path of an archive, as far as a drawing shows it: the names, which of them
are directories, and what is below those. An archive that shows such a tree is drawn by the lines
of the tree. Each tree of plain names in increasing order is shown by some archive, and each
drawing that is complete is that of a tree.
-/

set_option autoImplicit false

namespace ArchiveBrowser.Tree

/-- The entries right below a path, one after the other, with what is below the directories. -/
inductive Listing where
  | empty
  | file (name : String) (later : Listing)
  | directory (name : String) (below later : Listing)
  deriving DecidableEq

namespace Listing

def names : Listing → List String
  | empty => []
  | file name later | directory name _ later => name :: later.names

/-- How many directories are in one another at most. -/
def depth : Listing → Nat
  | empty => 0
  | file _ later => later.depth
  | directory _ below later => max (below.depth + 1) later.depth

def lines : Listing → (above : List Bool) → List Line
  | empty, _ => []
  | file name later, above =>
    { above, isLast := later.names.isEmpty, name, isDirectory := false } :: later.lines above
  | directory name below later, above =>
    { above, isLast := later.names.isEmpty, name, isDirectory := true } ::
      (below.lines (above ++ [later.names.isEmpty]) ++ later.lines above)

/-- Plain names, with siblings strictly increasing. -/
def Tidy : Listing → Prop
  | empty => True
  | file name later => PlainName name ∧ (∀ other ∈ later.names, name < other) ∧ later.Tidy
  | directory name below later =>
    PlainName name ∧ (∀ other ∈ later.names, name < other) ∧ below.Tidy ∧ later.Tidy

instance decidableTidy : DecidablePred Tidy
  | empty => .isTrue trivial
  | file name later =>
    have := decidableTidy later
    inferInstanceAs (Decidable (PlainName name ∧ (∀ other ∈ later.names, name < other) ∧ later.Tidy))
  | directory name below later =>
    have := decidableTidy below
    have := decidableTidy later
    inferInstanceAs (Decidable
      (PlainName name ∧ (∀ other ∈ later.names, name < other) ∧ below.Tidy ∧ later.Tidy))

/-- The archive tells the directories from the files, and lists what is below the directories. -/
def Marked (archive : Archive) : Listing → (holder : String) → Prop
  | empty, _ => True
  | file name later, holder =>
    archive.isDirectory (Path.child holder name) = .ok false ∧ later.Marked archive holder
  | directory name below later, holder =>
    archive.isDirectory (Path.child holder name) = .ok true ∧
      archive.sortedChildren (Path.child holder name) = .ok below.names ∧
      below.Marked archive (Path.child holder name) ∧ later.Marked archive holder

/-- The archive shows just these entries below `start`. -/
structure ShownBy (listing : Listing) (archive : Archive) (start : String) : Prop where
  names : archive.sortedChildren start = .ok listing.names
  marked : listing.Marked archive start

variable {archive : Archive} {listing : Listing} {start : String}

/-! ## The drawing -/

theorem draw_of_marked {holder : String} {levels : Nat} (marked : listing.Marked archive holder)
    (enough : listing.depth ≤ levels) (above : List Bool) :
    drawEntries archive (draw archive .tooDeep levels) holder above listing.names =
      { lines := listing.lines above, ending := .complete } := by
  induction listing generalizing holder levels above with
  | empty => rfl
  | file name later ih =>
      obtain ⟨told, rest⟩ := marked
      rw [names, drawEntries, told]
      simp only [ih rest enough, Bool.false_eq_true, if_false]
      rfl
  | directory name below later belowIh laterIh =>
      obtain ⟨told, listed, inside, rest⟩ := marked
      obtain ⟨deep, wide⟩ := Nat.max_le.mp enough
      -- Even an empty directory is asked for what is below it, and that takes a level.
      cases levels with
      | zero => cases deep
      | succ levels =>
          have drawn : draw archive .tooDeep (levels + 1) (Path.child holder name)
              (above ++ [later.names.isEmpty]) =
                { lines := below.lines (above ++ [later.names.isEmpty]), ending := .complete } := by
            rw [draw, listed]
            exact belowIh inside (Nat.le_of_succ_le_succ deep) _
          rw [names, drawEntries, told]
          simp only [laterIh rest wide, if_true, drawn]
          rfl

/-- An archive that shows a tree of entries is drawn by the lines of it. -/
theorem ShownBy.yields (shown : listing.ShownBy archive start) :
    Yields archive start none { lines := listing.lines [], ending := .complete } := by
  refine ⟨nofun, listing.depth + 1, ?_⟩
  rw [draw, shown.names]
  exact draw_of_marked shown.marked (Nat.le_refl _) []

theorem exists_marked {levels : Nat}
    (below : ∀ path lasts, (draw archive .tooDeep levels path lasts).ending = .complete →
      ∃ listing : Listing, listing.ShownBy archive path)
    {holder : String} {lasts : List Bool} {names : List String}
    (complete : (drawEntries archive (draw archive .tooDeep levels) holder lasts names).ending =
      .complete) :
    ∃ listing : Listing, listing.names = names ∧ listing.Marked archive holder := by
  induction names with
  | nil => exact ⟨.empty, rfl, trivial⟩
  | cons name rest ih =>
      rw [drawEntries] at complete
      cases told : archive.isDirectory (Path.child holder name) with
      | error error =>
          rw [told] at complete
          cases complete
      | ok isDirectory =>
          rw [told] at complete
          obtain ⟨upper, lower⟩ := (Drawing.above_complete _ _).mp complete
          obtain ⟨later, rfl, marked⟩ := ih lower
          cases isDirectory with
          | false => exact ⟨.file name later, rfl, told, marked⟩
          | true =>
              obtain ⟨inside, shown⟩ := below _ _ upper
              exact ⟨.directory name inside later, rfl, told, shown.1, shown.2, marked⟩

/-- Conversely, whatever is drawn to the end is a tree of entries. -/
theorem exists_shown {levels : Nat} {path : String} {lasts : List Bool}
    (complete : (draw archive .tooDeep levels path lasts).ending = .complete) :
    ∃ listing : Listing, listing.ShownBy archive path := by
  induction levels generalizing path lasts with
  | zero => cases complete
  | succ levels ih =>
      rw [draw] at complete
      cases asked : archive.sortedChildren path with
      | error error =>
          rw [asked] at complete
          cases complete
      | ok names =>
          rw [asked] at complete
          obtain ⟨listing, rfl, marked⟩ := exists_marked (fun path lasts => ih) complete
          exact ⟨listing, asked, marked⟩

end Listing

end ArchiveBrowser.Tree

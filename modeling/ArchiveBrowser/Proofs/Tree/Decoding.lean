import ArchiveBrowser.Proofs.Command.Printing
import ArchiveBrowser.Proofs.Tree.Lines
import ArchiveBrowser.Proofs.Tree.Shown

/-!
# Reading a drawing back

From the text of a drawing its lines are read back one by one. Their levels tell which entries are
below which, and so the whole tree is read back.
-/

set_option autoImplicit false

namespace ArchiveBrowser.Tree

namespace Listing

/-- The tree of these lines: what is on deeper levels right behind a directory is below it. -/
def ofLines : (lines : List Line) → Listing
  | [] => .empty
  | line :: rest =>
    if line.isDirectory then
      .directory line.name (ofLines (rest.takeWhile (line.level < ·.level)))
        (ofLines (rest.dropWhile (line.level < ·.level)))
    else .file line.name (ofLines rest)
termination_by lines => lines.length
decreasing_by
  · exact Nat.lt_succ_of_le (List.takeWhile_sublist _).length_le
  · exact Nat.lt_succ_of_le (List.dropWhile_sublist _).length_le
  · exact Nat.lt_succ_self rest.length

theorem of_lines_directory {line : Line} {inside outside : List Line}
    (isDirectory : line.isDirectory = true) (deeper : ∀ other ∈ inside, line.level < other.level)
    (back : ∀ other ∈ outside.head?, other.level ≤ line.level) :
    ofLines (line :: (inside ++ outside)) =
      .directory line.name (ofLines inside) (ofLines outside) := by
  have all : ∀ other ∈ inside, decide (line.level < other.level) = true := fun other member =>
    decide_eq_true (deeper other member)
  have none : outside.takeWhile (line.level < ·.level) = [] ∧
      outside.dropWhile (line.level < ·.level) = outside := by
    cases outside with
    | nil => exact ⟨rfl, rfl⟩
    | cons other rest => simp [Nat.not_lt.mpr (back other rfl)]
  rw [ofLines, if_pos isDirectory, List.takeWhile_append_of_pos all,
    List.dropWhile_append_of_pos all, none.1, none.2, List.append_nil]

theorem level_of_lines {listing : Listing} {above : List Bool} :
    ∀ line ∈ listing.lines above, above.length < line.level := by
  induction listing generalizing above with
  | empty => exact nofun
  | file name later ih => exact List.forall_mem_cons.mpr ⟨Nat.lt_succ_self _, ih⟩
  | directory name below later belowIh laterIh =>
      refine List.forall_mem_cons.mpr ⟨Nat.lt_succ_self _, List.forall_mem_append.mpr ⟨?_, laterIh⟩⟩
      intro line member
      have far := belowIh line member
      rw [List.length_append] at far
      exact Nat.lt_of_succ_lt far

theorem level_of_head (listing : Listing) (above : List Bool) :
    ∀ line ∈ (listing.lines above).head?, line.level = above.length + 1 := by
  cases listing <;> simp [lines, Line.level]

theorem of_lines_lines (listing : Listing) (above : List Bool) :
    ofLines (listing.lines above) = listing := by
  induction listing generalizing above with
  | empty => rw [lines, ofLines]
  | file name later ih => rw [lines, ofLines, if_neg Bool.false_ne_true, ih]
  | directory name below later belowIh laterIh =>
      rw [lines, of_lines_directory rfl, belowIh, laterIh]
      · intro line member
        have far := level_of_lines line member
        rwa [List.length_append] at far
      · intro line member
        exact Nat.le_of_eq (later.level_of_head above line member)

/-! ## Reading the text -/

/-- The tree that is read from the text of a drawing. -/
def ofText (text : String) : Listing :=
  ofLines ((Command.linesOf text).filterMap fun row => Line.read? row.toList)

/-- Every line of a tidy tree is about a plain name. -/
theorem plain_of_lines {listing : Listing} (tidy : listing.Tidy) {above : List Bool} :
    ∀ line ∈ listing.lines above, PlainName line.name := by
  induction listing generalizing above with
  | empty => exact nofun
  | file name later ih => exact List.forall_mem_cons.mpr ⟨tidy.1, ih tidy.2.2⟩
  | directory name below later belowIh laterIh =>
      exact List.forall_mem_cons.mpr ⟨tidy.1,
        List.forall_mem_append.mpr ⟨belowIh tidy.2.2.1, laterIh tidy.2.2.2⟩⟩

theorem of_text_rows {rows : List Line} (plain : ∀ line ∈ rows, PlainName line.name) :
    ofText (String.join (rows.map Line.render)) = ofLines rows := by
  have rendered : rows.map Line.render = (rows.map Line.row).map (· ++ "\n") := by
    rw [List.map_map]
    exact List.map_congr_left fun line _ => line.render_eq
  have inLines : ∀ row ∈ rows.map Line.row, '\n' ∉ row.toList := by
    intro row member
    obtain ⟨line, held, rfl⟩ := List.mem_map.mp member
    exact line.row_in_line (plain line held)
  have read : (rows.map Line.row).filterMap (fun row => Line.read? row.toList) = rows := by
    rw [List.filterMap_map]
    refine (List.filterMap_congr fun line held => ?_).trans List.filterMap_some
    exact Line.read_row (plain line held).free
  have last : [""].filterMap (fun row : String => Line.read? row.toList) = [] := rfl
  rw [ofText, rendered, Command.lines_of_terminated inLines, List.filterMap_append, read, last,
    List.append_nil]

end Listing

/-- What is written for the lines of a drawing. -/
def Drawing.text (drawing : Drawing) : String :=
  Command.joined (Command.pieces .drawing (drawing.lines.flatMap Line.texts))

theorem Listing.ShownBy.of_text {listing : Listing} {archive : Archive} {start : String}
    (tidy : listing.Tidy) (shown : listing.ShownBy archive start) {drawing : Drawing}
    (yields : Yields archive start none drawing) :
    drawing.ending = .complete ∧ Listing.ofText drawing.text = listing := by
  obtain rfl := shown.yields.unique yields
  refine ⟨rfl, ?_⟩
  rw [Drawing.text, Command.joined_lines, Listing.of_text_rows (Listing.plain_of_lines tidy),
    Listing.of_lines_lines]

/-- Every tidy tree of entries is shown by an archive, and whatever comes to an end draws a tree
of entries. From the text of the drawing a tidy tree is read back, so that no two of them are
drawn alike. -/
theorem drawing_is_unambiguous (start : String) :
    (∀ listing : Listing, listing.Tidy → listing.ShownBy (listing.archive start) start) ∧
      (∀ archive drawing, Yields archive start none drawing → drawing.ending = .complete →
        ∃ listing : Listing, listing.ShownBy archive start ∧ drawing.lines = listing.lines []) ∧
      (∀ (listing : Listing) archive, listing.Tidy → listing.ShownBy archive start →
        ∃ drawing, Yields archive start none drawing ∧ drawing.ending = .complete ∧
          Listing.ofText drawing.text = listing) ∧
      ∀ (listing other : Listing) first second drawing drawn, listing.Tidy → other.Tidy →
        listing.ShownBy first start → other.ShownBy second start →
        Yields first start none drawing → Yields second start none drawn →
        drawing.text = drawn.text → listing = other := by
  refine ⟨fun listing tidy => listing.shown_by_archive tidy start, ?_, ?_, ?_⟩
  · intro archive drawing yields complete
    have drew := yields
    obtain ⟨-, levels, rfl⟩ := drew
    obtain ⟨listing, shown⟩ := Listing.exists_shown complete
    exact ⟨listing, shown, congrArg Drawing.lines (yields.unique shown.yields)⟩
  · intro listing archive tidy shown
    have yields := shown.yields
    exact ⟨_, yields, shown.of_text tidy yields⟩
  · intro listing other first second drawing drawn tidy otherTidy shown alsoShown yields also same
    rw [← (shown.of_text tidy yields).2, same, (alsoShown.of_text otherTidy also).2]

namespace SampleDrawing

/-- The names begin like lines themselves. -/
def lookAlikes : Listing :=
  .directory "    └── a" (.file "b" .empty) (.file "│   ├── c" .empty)

theorem tidy : lookAlikes.Tidy := by decide

end SampleDrawing

open SampleDrawing in
theorem sample_drawing_read_back :
    lookAlikes.Tidy ∧ lookAlikes.ShownBy (lookAlikes.archive "/") "/" ∧
      ∃ drawing, Yields (lookAlikes.archive "/") "/" none drawing ∧
        Listing.ofText drawing.text = lookAlikes := by
  obtain ⟨shows, -, reads, -⟩ := drawing_is_unambiguous "/"
  have shown := shows lookAlikes tidy
  obtain ⟨drawing, yields, -, read⟩ := reads lookAlikes _ tidy shown
  exact ⟨tidy, shown, drawing, yields, read⟩

end ArchiveBrowser.Tree

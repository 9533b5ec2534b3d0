import ArchiveBrowser.Proofs.Path.Child
import ArchiveBrowser.Tree.Drawing

/-!
# The lines of a drawing

A line takes up one row of text, and is read back from it. The rails and the connector take four
characters each, and no rail is a connector, so that a name starts where the first connector ends,
whatever it looks like.
-/

set_option autoImplicit false

namespace ArchiveBrowser.Tree

/-- A name that takes up one line and has no slash of its own. -/
structure PlainName (name : String) : Prop where
  nonempty : name ≠ ""
  free : Path.separator ∉ name.toList
  no_newline : '\n' ∉ name.toList

instance (name : String) : Decidable (PlainName name) :=
  decidable_of_iff (name ≠ "" ∧ Path.separator ∉ name.toList ∧ '\n' ∉ name.toList)
    ⟨fun plain => ⟨plain.1, plain.2.1, plain.2.2⟩, fun plain =>
      ⟨plain.nonempty, plain.free, plain.no_newline⟩⟩

namespace Line

/-- How far below the start a line is, with 1 for the lines right below it. -/
def level (line : Line) : Nat :=
  line.above.length + 1

/-- A line without the newline. -/
def row (line : Line) : String :=
  String.join (line.above.map rail) ++ connector line.isLast ++ line.name ++
    if line.isDirectory then "/" else ""

theorem render_eq (line : Line) : line.render = line.row ++ "\n" := by
  have mark : (if line.isDirectory then "/\n" else "\n") =
      (if line.isDirectory then "/" else "") ++ "\n" := by
    cases line.isDirectory <;> rfl
  rw [render, texts, row, mark]
  simp only [String.join_cons, String.join_nil, String.append_assoc, String.append_empty]

/-- The same line further inside. -/
def inside (isLast : Bool) (line : Line) : Line :=
  { line with above := isLast :: line.above }

/-- The line right below the start on which these letters follow the connector. -/
def named (isLast : Bool) (letters : List Char) : Line :=
  if letters.getLast? = some Path.separator then
    { above := [], isLast, name := String.ofList letters.dropLast, isDirectory := true }
  else { above := [], isLast, name := String.ofList letters, isDirectory := false }

def read? : (letters : List Char) → Option Line
  | first :: second :: third :: fourth :: rest =>
    let sign := [first, second, third, fourth]
    if sign = (rail true).toList then (read? rest).map (inside true)
    else if sign = (rail false).toList then (read? rest).map (inside false)
    else if sign = (connector true).toList then some (named true rest)
    else if sign = (connector false).toList then some (named false rest)
    else none
  | _ => none

theorem read_rail (isLast : Bool) (letters : List Char) :
    read? ((rail isLast).toList ++ letters) = (read? letters).map (inside isLast) := by
  cases isLast <;> rfl

theorem read_connector (isLast : Bool) (letters : List Char) :
    read? ((connector isLast).toList ++ letters) = some (named isLast letters) := by
  cases isLast <;> rfl

theorem named_of_free {name : String} (free : Path.separator ∉ name.toList)
    (isLast isDirectory : Bool) :
    named isLast (name.toList ++ (if isDirectory then "/" else "").toList) =
      { above := [], isLast, name, isDirectory } := by
  cases isDirectory with
  | true => simp [named, Path.separator_text]
  | false =>
      have noMark : name.toList.getLast? ≠ some Path.separator := fun last =>
        free (List.mem_of_getLast? last)
      simp [named, noMark]

/-- The name may look like more rails or another connector. -/
theorem read_row {line : Line} (free : Path.separator ∉ line.name.toList) :
    read? line.row.toList = some line := by
  obtain ⟨above, isLast, name, isDirectory⟩ := line
  simp only [row, String.append_assoc, String.toList_append] at free ⊢
  induction above with
  | nil =>
      rw [List.map_nil, String.join_nil, String.toList_empty, List.nil_append, read_connector,
        named_of_free free]
  | cons last above ih =>
      rw [List.map_cons, String.join_cons, String.toList_append, List.append_assoc, read_rail, ih]
      rfl

theorem row_ends (line : Line) (plain : PlainName line.name) :
    Path.endsWithSeparator line.row = line.isDirectory := by
  rw [row]
  cases line.isDirectory with
  | true => exact Path.ends_with_separator_iff.mpr ⟨_, rfl⟩
  | false =>
      rw [if_neg Bool.false_ne_true, String.append_empty,
        Path.ends_with_separator_append _ plain.nonempty,
        Path.ends_with_separator_of_free plain.free]

theorem row_in_line (line : Line) (plain : PlainName line.name) : '\n' ∉ line.row.toList := by
  have rails : '\n' ∉ (String.join (line.above.map rail)).toList := by
    induction line.above with
    | nil => exact List.not_mem_nil
    | cons last above ih =>
        rw [List.map_cons, String.join_cons, String.toList_append, List.mem_append, not_or]
        exact ⟨by cases last <;> decide, ih⟩
  have sign : '\n' ∉ (connector line.isLast).toList := by cases line.isLast <;> decide
  have mark : '\n' ∉ (if line.isDirectory then "/" else "").toList := by
    cases line.isDirectory <;> decide
  simp only [row, String.toList_append, List.mem_append, not_or]
  exact ⟨⟨⟨rails, sign⟩, plain.no_newline⟩, mark⟩

end Line

end ArchiveBrowser.Tree

import ArchiveBrowser.Command.Tree
import ArchiveBrowser.Proofs.Stream.Accepting
import ArchiveBrowser.Proofs.Text.ByteOrder
import Mathlib.Data.List.Lemmas

/-!
# What a command prints

Texts that are written one after the other are received as one text. `Prints` says of a
command that this text is all it writes, and that it succeeds wherever the output does not
fail. A text is cut into lines at its newlines.
-/

set_option autoImplicit false

namespace ArchiveBrowser.Command

/-- To an output that takes everything, the command writes just this text. -/
def Prints (run : Sink → Outcome) (text : String) : Prop :=
  ∀ sink : Sink, sink.Accepts → ∃ after, run sink = (.ok (), after) ∧ after.Accepts ∧
    after.received = sink.received ++ Bytes.ofText text

def joined (texts : List Piece) : String :=
  String.join (texts.map Piece.text)

theorem joined_cons (piece : Piece) (texts : List Piece) :
    joined (piece :: texts) = piece.text ++ joined texts := by
  rw [joined, List.map_cons, String.join_cons, joined]

theorem joined_append (upper lower : List Piece) :
    joined (upper ++ lower) = joined upper ++ joined lower := by
  rw [joined, List.map_append, String.join_append, joined, joined]

theorem joined_pieces (stage : Stage) (texts : List String) :
    joined (pieces stage texts) = String.join texts := by
  rw [joined, pieces, List.map_map]
  exact congrArg String.join (List.map_id texts)

theorem prints_print (texts : List Piece) : Prints (print · texts) (joined texts) := by
  induction texts with
  | nil =>
      intro sink accepts
      exact ⟨sink, rfl, accepts, (List.append_nil _).symm⟩
  | cons piece texts ih =>
      intro sink accepts
      obtain ⟨between, wrote, accepting⟩ :=
        accepts.write_all .bufferUnwritten (Bytes.ofText piece.text)
      have took := Sink.write_all_ok wrote
      obtain ⟨after, printed, stillAccepting, received⟩ := ih between accepting
      refine ⟨after, ?_, stillAccepting, ?_⟩
      · simp only [print, wrote]
        exact printed
      · rw [received, took.received, joined_cons, Bytes.of_text_append, List.append_assoc]

/-! ## Lines -/

/-- The texts between the newlines, of which there is one more than there are newlines. -/
def linesOf (text : String) : List String :=
  (text.toList.splitOn '\n').map String.ofList

theorem to_list_join_terminated (lines : List String) :
    (String.join (lines.map (· ++ "\n"))).toList =
      ['\n'].intercalate (lines.map String.toList ++ [[]]) := by
  induction lines with
  | nil => rfl
  | cons line lines ih =>
      rw [List.map_cons, String.join_cons, String.toList_append, ih, List.map_cons,
        List.cons_append, List.intercalate_cons_of_ne_nil (by simp), String.toList_append]
      rfl

/-- Lines that are each ended by a newline are found again, with nothing behind the last. -/
theorem lines_of_terminated {lines : List String} (clean : ∀ line ∈ lines, '\n' ∉ line.toList) :
    linesOf (String.join (lines.map (· ++ "\n"))) = lines ++ [""] := by
  have cleanLetters : ∀ letters ∈ lines.map String.toList ++ [[]], '\n' ∉ letters := by
    intro letters member
    rcases List.mem_append.mp member with inside | last
    · obtain ⟨line, held, rfl⟩ := List.mem_map.mp inside
      exact clean line held
    · rw [List.mem_singleton.mp last]
      exact List.not_mem_nil
  have texts : String.ofList ∘ String.toList = id := by
    funext line
    exact String.ofList_toList
  rw [linesOf, to_list_join_terminated, List.splitOn_intercalate '\n' cleanLetters (by simp),
    List.map_append, List.map_map, texts, List.map_id]
  rfl

/-! ## Trees -/

theorem joined_lines (lines : List Tree.Line) :
    joined (pieces .drawing (lines.flatMap Tree.Line.texts)) =
      String.join (lines.map Tree.Line.render) := by
  rw [joined_pieces]
  induction lines with
  | nil => rfl
  | cons line lines ih =>
      rw [List.flatMap_cons, String.join_append, ih, List.map_cons, String.join_cons]
      rfl

def summary (drawing : Tree.Drawing) : String :=
  toString drawing.directoryCount ++ " directories, " ++ toString drawing.fileCount ++ " files"

/-- A tree that is complete is printed in lines: the start, the lines of the drawing, an empty
one and the summary. -/
theorem prints_tree {archive : Archive} {path : String} {depth : Option Nat} {rows : List String}
    (complete : (Tree.drawing archive path depth).ending = .complete)
    (rendered : (Tree.drawing archive path depth).lines.map Tree.Line.render =
      rows.map (· ++ "\n")) :
    Prints (treeIn archive path depth)
      (String.join ((path :: rows ++ ["", summary (Tree.drawing archive path depth)]).map
        (· ++ "\n"))) := by
  have text : joined (treeHeader path ++
        pieces .drawing ((Tree.drawing archive path depth).lines.flatMap Tree.Line.texts) ++
        treeSummary (Tree.drawing archive path depth)) =
      String.join ((path :: rows ++ ["", summary (Tree.drawing archive path depth)]).map
        (· ++ "\n")) := by
    rw [joined_append, joined_append, joined_lines, rendered, treeHeader, treeSummary,
      joined_pieces, joined_pieces, summary]
    simp only [List.map_append, List.map_cons, List.map_nil, List.cons_append, String.join_cons,
      String.join_append, String.join_nil, String.append_assoc, String.empty_append,
      String.append_empty]
    rfl
  intro sink accepts
  obtain ⟨after, printed, accepting, received⟩ := prints_print _ sink accepts
  refine ⟨after, ?_, accepting, text ▸ received⟩
  simp only [treeIn, treePieces, complete, printed]

end ArchiveBrowser.Command

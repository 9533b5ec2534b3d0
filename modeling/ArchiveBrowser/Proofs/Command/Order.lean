import ArchiveBrowser.Command.List
import ArchiveBrowser.Command.Tree
import ArchiveBrowser.Proofs.Tree.Levels
import Mathlib

/-!
# Output and the order of listings

Two archives that differ only in the order in which they list their directories are listed and
drawn alike, byte for byte and to any output.
-/

set_option autoImplicit false

namespace ArchiveBrowser.Command

variable {first second : Archive}

theorem entries_of_of_agrees (agrees : first.AgreesUpToOrder second) (directory : String)
    (names : List String) :
    (entriesOf first directory names).value = (entriesOf second directory names).value := by
  induction names with
  | nil => rfl
  | cons name rest ih => rw [entries_of_cons, entries_of_cons, agrees.is_directory, ih]

theorem list_of_agrees (agrees : first.AgreesUpToOrder second) (target path : String)
    (options : ListOptions) (sink : Sink) :
    (listIn first target path options sink).value =
      (listIn second target path options sink).value := by
  have asked : (entries first path options.filter).value =
      (entries second path options.filter).value := by
    simp only [entries_value, agrees.sorted_children, entries_of_of_agrees agrees]
  have shown : listingPieces target first path options.asJson =
      listingPieces target second path options.asJson := by
    funext entries
    simp only [listingPieces, agrees.kind]
  rw [listIn, listIn, Log.Logged.map, Log.Logged.map, asked, shown]

/-- The order in which an archive lists its directories does not show: neither in a listing,
nor in the drawing to which a tree comes, nor in the output of a tree for which both archives
have levels enough. -/
theorem output_without_listing_order (agrees : first.AgreesUpToOrder second) :
    (∀ target path options sink,
        (listIn first target path options sink).value =
          (listIn second target path options sink).value) ∧
      (∀ path depth drawing,
        Tree.Yields first path depth drawing ↔ Tree.Yields second path depth drawing) ∧
      ∀ path depth sink,
        (depth = none → (Tree.drawing first path none).ending ≠ .tooDeep ∧
          (Tree.drawing second path none).ending ≠ .tooDeep) →
        treeIn first path depth sink = treeIn second path depth sink := by
  refine ⟨list_of_agrees agrees, Tree.yields_of_agrees agrees, ?_⟩
  intro path depth sink ended
  have same : Tree.drawing first path depth = Tree.drawing second path depth :=
    Tree.drawing_of_agrees agrees (fun limitless => (ended limitless).1)
      fun limitless => (ended limitless).2
  unfold treeIn
  rw [same]

namespace SampleOrder

def archive : Archive where
  kind := .zip
  listing path := .quiet (if path = "/" then .ok ["b", "a"] else .ok [])
  isFile path := .ok (path != "/")
  openFile _ := .quiet (.ok none)
  height := 3

def reversed : Archive :=
  { archive with listing := fun path => (archive.listing path).map (Except.map List.reverse) }

theorem agrees : archive.AgreesUpToOrder reversed where
  kind := rfl
  is_file _ := rfl
  list path := by
    right
    by_cases root : path = "/"
    · exact ⟨["b", "a"], ["a", "b"], if_pos root, congrArg (Except.map List.reverse) (if_pos root),
        (List.reverse_perm ["b", "a"]).symm⟩
    · exact ⟨[], [], if_neg root, congrArg (Except.map List.reverse) (if_neg root), .nil⟩

end SampleOrder

open SampleOrder in
theorem sample_output_without_order :
    archive.AgreesUpToOrder reversed ∧ archive.list "/" ≠ reversed.list "/" ∧
      ((none : Option Nat) = none → (Tree.drawing archive "/" none).ending ≠ .tooDeep ∧
        (Tree.drawing reversed "/" none).ending ≠ .tooDeep) ∧
      treeIn archive "/" none .unlimited = treeIn reversed "/" none .unlimited ∧
      (treeIn archive "/" none .unlimited).2.received =
        Bytes.ofText "/\n├── a\n└── b\n\n0 directories, 2 files\n" := by
  have complete : (Tree.drawing archive "/" none).ending = .complete := by cbv
  have alsoComplete : (Tree.drawing reversed "/" none).ending = .complete := by cbv
  have ended : (none : Option Nat) = none → (Tree.drawing archive "/" none).ending ≠ .tooDeep ∧
      (Tree.drawing reversed "/" none).ending ≠ .tooDeep := by
    intro limitless
    rw [complete, alsoComplete]
    decide
  obtain ⟨-, -, drawn⟩ := output_without_listing_order agrees
  refine ⟨agrees, by decide, ended, drawn "/" none .unlimited ended, ?_⟩
  cbv

end ArchiveBrowser.Command

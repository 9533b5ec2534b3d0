import ArchiveBrowser.Archive.Basic
import ArchiveBrowser.Proofs.Text.Sorted

/-!
# Archives that differ in the order of their listings

What is asked of an archive to list or draw it are its sorted listings and whether paths are
directories. Neither depends on the order in which a listing comes.
-/

set_option autoImplicit false

namespace ArchiveBrowser.Archive

/-- For each path the same error, or the same names in some order. -/
structure AgreesUpToOrder (first second : Archive) : Prop where
  kind : first.kind = second.kind
  is_file : ∀ path, first.isFile path = second.isFile path
  list : ∀ path,
    (∃ error, first.list path = .error error ∧ second.list path = .error error) ∨
      ∃ names others, first.list path = .ok names ∧ second.list path = .ok others ∧
        names.Perm others

variable {first second : Archive}

theorem AgreesUpToOrder.sorted_children (agrees : first.AgreesUpToOrder second)
    (path : String) : first.sortedChildren path = second.sortedChildren path := by
  rw [sorted_children_eq, sorted_children_eq]
  rcases agrees.list path with ⟨error, refused, also⟩ | ⟨names, others, listed, also, permuted⟩
  · rw [refused, also]
  · rw [listed, also]
    exact congrArg Except.ok (Text.sorted_of_perm permuted)

theorem AgreesUpToOrder.is_directory (agrees : first.AgreesUpToOrder second) (path : String) :
    first.isDirectory path = second.isDirectory path := by
  rw [is_directory_eq, is_directory_eq, agrees.is_file path]
  rcases agrees.list path with ⟨error, refused, also⟩ | ⟨names, others, listed, also, permuted⟩
  · rw [refused, also]
  · have empty : names.isEmpty = others.isEmpty := permuted.isEmpty_eq
    rw [listed, also]
    simp only [Except.bind, empty]

end ArchiveBrowser.Archive

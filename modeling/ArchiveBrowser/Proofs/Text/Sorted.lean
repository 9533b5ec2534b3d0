import Mathlib.Data.String.Basic

/-!
# Sorted texts

Sorting leaves nothing of the order in which texts came: it puts each in front of those that it
is not above, and there is only one way to do that.
-/

set_option autoImplicit false

namespace ArchiveBrowser.Text

theorem pairwise_sorted (texts : List String) :
    (texts.mergeSort fun first second => first ≤ second).Pairwise (· ≤ ·) := by
  have sorted : (texts.mergeSort fun first second => first ≤ second).Pairwise fun first second =>
      decide (first ≤ second) = true := by
    apply List.pairwise_mergeSort
    · intro first second third before behind
      exact decide_eq_true (le_trans (of_decide_eq_true before) (of_decide_eq_true behind))
    · intro first second
      simpa using le_total first second
  exact sorted.imp of_decide_eq_true

theorem sorted_of_perm {texts others : List String} (permuted : texts.Perm others) :
    (texts.mergeSort fun first second => first ≤ second) =
      others.mergeSort fun first second => first ≤ second := by
  have same : (texts.mergeSort fun first second => first ≤ second).Perm
      (others.mergeSort fun first second => first ≤ second) :=
    ((List.mergeSort_perm texts _).trans permuted).trans (List.mergeSort_perm others _).symm
  exact same.eq_of_pairwise (fun _ _ _ _ before behind => le_antisymm before behind)
    (pairwise_sorted texts) (pairwise_sorted others)

theorem sorted_of_increasing {texts : List String} (increasing : texts.Pairwise (· < ·)) :
    (texts.mergeSort fun first second => first ≤ second) = texts := by
  apply List.mergeSort_of_pairwise
  exact increasing.imp fun before => decide_eq_true (le_of_lt before)

end ArchiveBrowser.Text

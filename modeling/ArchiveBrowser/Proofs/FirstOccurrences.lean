import Mathlib.Data.List.Induction
import Mathlib.Data.List.Nodup

/-!
# First occurrences

A list that is gathered from another without repetitions is in the order in which its
members are first met there.
-/

set_option autoImplicit false

namespace ArchiveBrowser

variable {Item Name : Type} [DecidableEq Name]

theorem erase_dups_snoc (names : List Name) (name : Name) :
    (names ++ [name]).eraseDups =
      if name ∈ names.eraseDups then names.eraseDups else names.eraseDups ++ [name] := by
  by_cases old : name ∈ names
  · rw [if_pos (List.mem_eraseDups.mpr old), List.eraseDups_append]
    simp [old, List.removeAll]
  · rw [if_neg (fun member => old (List.mem_eraseDups.mp member)), List.eraseDups_append]
    simp [old, List.removeAll, List.eraseDups_cons]

/-- The position of the first item that yields `name`. -/
def firstYield (yield : Item → Option Name) (items : List Item) (name : Name) : Nat :=
  items.findIdx fun item => yield item == some name

theorem first_yield_append {yield : Item → Option Name} {items : List Item} {name : Name}
    (found : name ∈ items.filterMap yield) (more : List Item) :
    firstYield yield (items ++ more) name = firstYield yield items name ∧
      firstYield yield items name < items.length := by
  obtain ⟨item, member, yields⟩ := List.mem_filterMap.mp found
  have inside : firstYield yield items name < items.length :=
    List.findIdx_lt_length_of_exists ⟨item, member, by simp [yields]⟩
  refine ⟨?_, inside⟩
  rw [firstYield, List.findIdx_append]
  exact if_pos inside

theorem length_le_first_yield {yield : Item → Option Name} {items : List Item} {name : Name}
    (absent : name ∉ items.filterMap yield) (more : List Item) :
    items.length ≤ firstYield yield (items ++ more) name := by
  have notInside : ¬items.findIdx (fun item => yield item == some name) < items.length := by
    rw [List.findIdx_lt_length]
    intro found
    obtain ⟨item, member, yields⟩ := found
    exact absent (List.mem_filterMap.mpr ⟨item, member, by simpa using yields⟩)
  rw [firstYield, List.findIdx_append, if_neg notInside]
  omega

theorem erase_dups_in_order (yield : Item → Option Name) (items : List Item) :
    (items.filterMap yield).eraseDups.Pairwise fun first second =>
      firstYield yield items first < firstYield yield items second := by
  induction items using List.reverseRecOn with
  | nil => simp
  | append_singleton items item ih =>
      have kept : (items.filterMap yield).eraseDups.Pairwise fun first second =>
          firstYield yield (items ++ [item]) first < firstYield yield (items ++ [item]) second := by
        refine ih.imp_of_mem ?_
        intro first second firstMember secondMember ordered
        rw [(first_yield_append (List.mem_eraseDups.mp firstMember) [item]).1,
          (first_yield_append (List.mem_eraseDups.mp secondMember) [item]).1]
        exact ordered
      rw [List.filterMap_append]
      cases yields : yield item with
      | none => simpa [yields] using kept
      | some name =>
          have single : [item].filterMap yield = [name] := by simp [yields]
          rw [single, erase_dups_snoc]
          -- A name that was met before keeps its position, and a new one is met after all others.
          by_cases old : name ∈ (items.filterMap yield).eraseDups
          · rw [if_pos old]
            exact kept
          · rw [if_neg old, List.pairwise_append]
            refine ⟨kept, by simp, ?_⟩
            intro earlier member later isNew
            obtain rfl := List.mem_singleton.mp isNew
            have before := first_yield_append (List.mem_eraseDups.mp member) [item]
            have behind := length_le_first_yield
              (fun found => old (List.mem_eraseDups.mpr found)) [item]
            omega

theorem nodup_erase_dups (names : List Name) : names.eraseDups.Nodup := by
  have ordered := erase_dups_in_order some names
  rw [List.filterMap_some] at ordered
  refine ordered.imp ?_
  intro first second before same
  subst same
  exact absurd before (Nat.lt_irrefl _)

end ArchiveBrowser

import ArchiveBrowser.Proofs.Path.Child
import ArchiveBrowser.Proofs.Zip.FileRecords

/-!
# The parent that lists a path

The text before the last slash of a path leads to the node that has the rest as a child,
since both are made of the same segments. There is one exception: the text before the last
slash of `//x` is that of the root, whereas `x` is below the nameless child of the root, and
no path leads there.
-/

set_option autoImplicit false

namespace ArchiveBrowser

namespace Trie

variable {α : Type}

theorem count_child_names_run (history : List (Operation α)) {whole place : List String}
    {leaf : String} (inserted : whole ∈ history.filterMap Operation.inserted?)
    (through : place ++ [leaf] <+: whole) : ((run history).childNames place).count leaf = 1 := by
  have once : ((run history).childNames place).Nodup := by
    rw [child_names_run]
    exact nodup_erase_dups _
  exact List.count_eq_one_of_mem once
    ((mem_child_names_run history place leaf).mpr ⟨whole, inserted, through⟩)

theorem count_list_root_run (history : List (Operation α)) (leaf : String) :
    ((run history).list "/").count leaf = 1 ↔
      ∃ whole ∈ history.filterMap Operation.inserted?, [leaf] <+: whole := by
  rw [list_eq (run history) Path.segments_root]
  constructor
  · intro counted
    have listed : leaf ∈ (run history).childNames [] := List.count_pos_iff.mp (by omega)
    exact (mem_child_names_run history [] leaf).mp listed
  · intro through
    obtain ⟨whole, inserted, leads⟩ := through
    exact count_child_names_run history inserted leads

variable {history : List (Operation α)} {operation : Operation α} {whole : List String}
  {before leaf : String}

/-- The text before the last slash lists what is behind it. -/
theorem count_list_parent (member : operation ∈ history)
    (inserted : operation.inserted? = some whole) (below : operation.path ≠ "/")
    (joined : operation.path = before ++ "/" ++ leaf) (free : Path.separator ∉ leaf.toList)
    (inside : before ≠ "/" ∨ leaf = "") :
    ((run history).list (if before = "" then "/" else before)).count leaf = 1 := by
  have listed : whole ∈ history.filterMap Operation.inserted? :=
    List.mem_filterMap.mpr ⟨operation, member, inserted⟩
  obtain ⟨above, rfl, rfl, aboveFree⟩ :=
    Path.segments_of_cut_last (segments_of_inserted inserted) below joined free
  by_cases root : Path.stem above = "/"
  · -- The root has a nameless child, whatever there is below it.
    rcases inside with other | rfl
    · exact absurd root other
    · rw [root]
      refine (count_list_root_run history "").mpr ⟨_, listed, ?_⟩
      rw [(Path.stem_eq_root aboveFree).mp root]
      exact ⟨[""], rfl⟩
  · rw [list_eq (run history) (Path.segments_stem aboveFree root)]
    exact count_child_names_run history listed (List.prefix_refl _)

theorem count_below_nameless (member : operation ∈ history)
    (inserted : operation.inserted? = some whole) (below : operation.path ≠ "/")
    (joined : operation.path = before ++ "/" ++ leaf) (free : Path.separator ∉ leaf.toList)
    (root : before = "/") :
    ((run history).list "/").count "" = 1 ∧ ((run history).childNames [""]).count leaf = 1 := by
  have listed : whole ∈ history.filterMap Operation.inserted? :=
    List.mem_filterMap.mpr ⟨operation, member, inserted⟩
  obtain ⟨above, rfl, text, aboveFree⟩ :=
    Path.segments_of_cut_last (segments_of_inserted inserted) below joined free
  have lone : above = [""] := (Path.stem_eq_root aboveFree).mp (text.symm.trans root)
  subst lone
  constructor
  · exact (count_list_root_run history "").mpr ⟨_, listed, [leaf], rfl⟩
  · exact count_child_names_run history listed (List.prefix_refl _)

end Trie

open Trie (Operation run)

/-- A path that was inserted is cut at its last slash. What is behind that is listed once by
what is before it, or by the root if that is empty. Where it is the text of the root itself,
the root lists the nameless child, which lists what is behind the slash; the root does so only
for other reasons. The files of a container are listed alike. -/
theorem listed_once_by_parent {α : Type} (history : List (Operation α)) (sourceName : String)
    (table : Zip.Table) :
    (∀ operation ∈ history, ∀ before leaf, operation.inserted?.isSome = true →
      operation.path ≠ "/" → operation.path = before ++ "/" ++ leaf →
      Path.separator ∉ leaf.toList →
        (before ≠ "/" ∨ leaf = "" →
          ((run history).list (if before = "" then "/" else before)).count leaf = 1) ∧
        (before = "/" → leaf ≠ "" →
          ((run history).list "/").count "" = 1 ∧
            ((run history).childNames [""]).count leaf = 1 ∧
            (((run history).list "/").count leaf = 1 ↔
              ∃ whole ∈ history.filterMap Operation.inserted?, [leaf] <+: whole))) ∧
      ∃ zip, (ZipArchive.ofTable sourceName table).value = .ok zip ∧
        ∀ name ∈ ZipArchive.fileNames table.names, ∀ before leaf, name ≠ "" →
          "/" ++ name = before ++ "/" ++ leaf → Path.separator ∉ leaf.toList → before ≠ "/" →
          ∃ listed, zip.list (if before = "" then "/" else before) = .ok listed ∧
            listed.count leaf = 1 := by
  refine ⟨?_, _, ZipArchive.of_table_value sourceName table, ?_⟩
  · intro operation member before leaf some below joined free
    obtain ⟨whole, inserted⟩ := Option.isSome_iff_exists.mp some
    refine ⟨Trie.count_list_parent member inserted below joined free, ?_⟩
    intro root _
    obtain ⟨nameless, inNameless⟩ :=
      Trie.count_below_nameless member inserted below joined free root
    exact ⟨nameless, inNameless, Trie.count_list_root_run history leaf⟩
  · intro name member before leaf nonempty joined free inside
    obtain ⟨whole, cut⟩ := ZipArchive.segments_of_entry name
    have below : "/" ++ name ≠ "/" := by
      intro same
      exact nonempty (ZipArchive.entry_path_injective (same.trans (String.append_empty).symm))
    obtain ⟨above, rfl, rfl, aboveFree⟩ := Path.segments_of_cut_last cut below joined free
    refine ⟨_, ZipArchive.list_eq (Path.segments_stem aboveFree inside), ?_⟩
    exact Trie.count_child_names_run _ (ZipArchive.mem_inserted_writes.mpr ⟨name, member, cut⟩)
      (List.prefix_refl _)

def sampleInsertions : List (Operation Nat) :=
  [.insert "/a//b", .insert "//x"]

def sampleEntries : Zip.Table :=
  { names := ["a/b", "/x"], contents := fun entry => .ok [UInt8.ofNat entry] }

theorem sample_listed_by_parents :
    Trie.Operation.insert "/a//b" ∈ sampleInsertions ∧
      Trie.Operation.insert "//x" ∈ sampleInsertions ∧
      "a/b" ∈ ZipArchive.fileNames sampleEntries.names ∧
      ((run sampleInsertions).list "/a/").count "b" = 1 ∧
      ((run sampleInsertions).list "/").count "" = 1 ∧
      ((run sampleInsertions).childNames [""]).count "x" = 1 ∧
      ∃ zip listed, (ZipArchive.ofTable "sample.zip" sampleEntries).value = .ok zip ∧
        zip.list "/a" = .ok listed ∧ listed.count "b" = 1 := by
  have first : Trie.Operation.insert "/a//b" ∈ sampleInsertions := by simp [sampleInsertions]
  have second : Trie.Operation.insert "//x" ∈ sampleInsertions := by simp [sampleInsertions]
  have file : "a/b" ∈ ZipArchive.fileNames sampleEntries.names := by decide
  obtain ⟨lists, zip, opens, zipLists⟩ :=
    listed_once_by_parent sampleInsertions "sample.zip" sampleEntries
  have atParent := (lists _ first "/a/" "b" (by decide) (by decide) rfl (by decide)).1
    (.inl (by decide))
  obtain ⟨nameless, inNameless, -⟩ :=
    (lists _ second "/" "x" (by decide) (by decide) rfl (by decide)).2 rfl (by decide)
  obtain ⟨listed, asked, once⟩ :=
    zipLists "a/b" file "/a" "b" (by decide) rfl (by decide) (by decide)
  exact ⟨first, second, file, atParent, nameless, inNameless, zip, listed, opens, asked, once⟩

/-- Before the last slash of `//x` there is the path of the root, which does not list `x`. -/
theorem nameless_parent_not_addressed :
    (Operation.insert "//x" : Operation Nat).inserted?.isSome = true ∧
      "//x" ≠ "/" ∧ "//x" = "/" ++ "/" ++ "x" ∧ Path.separator ∉ "x".toList ∧
      (run [(Operation.insert "//x" : Operation Nat)]).list "/" = [""] ∧
      ((run [(Operation.insert "//x" : Operation Nat)]).list "/").count "x" ≠ 1 := by
  decide

end ArchiveBrowser

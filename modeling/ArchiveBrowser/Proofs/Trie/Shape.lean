import ArchiveBrowser.Proofs.Trie.History

/-!
# The shape of a trie is what was inserted

The nodes of a trie are the beginnings of the segment lists that were inserted, and every
row of siblings is in the order in which a history first came by its names.
-/

set_option autoImplicit false

namespace ArchiveBrowser.Trie

variable {α : Type}

/-- The number of operations before the first that inserts a path through `place`. -/
def firstMade (history : List (Operation α)) (place : List String) : Nat :=
  history.findIdx fun operation => operation.inserted?.any place.isPrefixOf

theorem first_made_eq (history : List (Operation α)) (place : List String) (name : String) :
    firstMade history (place ++ [name]) =
      firstYield (fun operation => operation.inserted?.bind (nextSegment? · place)) history
        name := by
  unfold firstMade firstYield
  congr 1
  funext operation
  rw [Bool.eq_iff_iff, beq_iff_eq]
  cases inserted : operation.inserted? with
  | none => simp [inserted]
  | some whole => simp [inserted, next_segment_eq_some]

theorem list_eq (trie : Trie α) {path : String} {place : List String}
    (cut : Path.segments? path = some place) : trie.list path = trie.childNames place := by
  rw [list, find?, cut, Option.bind_some, childNames]

theorem list_of_relative (trie : Trie α) {path : String} (relative : Path.segments? path = none) :
    trie.list path = [] := by
  rw [list, find?, relative]
  rfl

theorem mem_child_names_run (history : List (Operation α)) (place : List String) (name : String) :
    name ∈ (run history).childNames place ↔
      ∃ whole ∈ history.filterMap Operation.inserted?, place ++ [name] <+: whole := by
  rw [child_names_run, List.mem_eraseDups]
  simp only [List.mem_filterMap, Option.bind_eq_some_iff, next_segment_eq_some]
  constructor
  · intro follows
    obtain ⟨operation, member, whole, inserted, through⟩ := follows
    exact ⟨whole, ⟨operation, member, inserted⟩, through⟩
  · intro follows
    obtain ⟨whole, ⟨operation, member, inserted⟩, through⟩ := follows
    exact ⟨operation, member, whole, inserted, through⟩

theorem child_names_run_in_order (history : List (Operation α)) (place : List String) :
    ((run history).childNames place).Pairwise fun first second =>
      firstMade history (place ++ [first]) < firstMade history (place ++ [second]) := by
  simp only [child_names_run, first_made_eq]
  exact erase_dups_in_order _ history

theorem child_names_run_free (history : List (Operation α)) (place : List String)
    (name : String) (listed : name ∈ (run history).childNames place) :
    Path.separator ∉ name.toList := by
  obtain ⟨whole, member, through⟩ := (mem_child_names_run history place name).mp listed
  obtain ⟨operation, -, inserted⟩ := List.mem_filterMap.mp member
  exact (inserted_are_segments inserted).2 name (through.subset (by simp))

theorem child_is_some_iff (node : Node α) (name : String) :
    (node.child? name).isSome = true ↔ name ∈ node.children.names :=
  Forest.node_is_some_iff node.children name

/-- After any history a path has a node if it is the root or a beginning of what was
inserted. Its names are those that follow it there, each once, in the order in which they
were first made. Inserting a path that has a node changes nothing. -/
theorem shape_is_prefix_closure (history : List (Operation α)) (path : String) :
    (((run history).find? path).isSome = true ↔
        path = "/" ∨ ∃ place, Path.segments? path = some place ∧
          ∃ whole ∈ history.filterMap Operation.inserted?, place <+: whole) ∧
      (∀ node, (run history).find? path = some node →
        ∃ place, Path.segments? path = some place ∧
          ((run history).list path).Nodup ∧
          (∀ name, name ∈ (run history).list path ↔
            ∃ whole ∈ history.filterMap Operation.inserted?, place ++ [name] <+: whole) ∧
          (((run history).list path).Pairwise fun first second =>
            firstMade history (place ++ [first]) < firstMade history (place ++ [second])) ∧
          (∀ name ∈ (run history).list path, Path.separator ∉ name.toList) ∧
          ∀ name, (node.child? name).isSome = true ↔ name ∈ (run history).list path) ∧
      ((run history).find? path = none → (run history).list path = []) ∧
      (((run history).find? path).isSome = true →
        (run history).insert path = .ok (run history)) := by
  cases cut : Path.segments? path with
  | none =>
      have missing : (run history).find? path = none := by rw [find?, cut, Option.bind_none]
      have notRoot : path ≠ "/" := by
        intro same
        subst same
        cases cut
      refine ⟨by simp [missing, notRoot], ?_, fun _ => list_of_relative _ cut, ?_⟩
      · intro node found
        rw [missing] at found
        cases found
      · intro there
        rw [missing] at there
        cases there
  | some place =>
      have found : (run history).find? path = (run history).node? place := by
        rw [find?, cut, Option.bind_some]
      have isRoot : path = "/" ↔ place = [] := by
        rw [← Path.segments_eq_nil, cut, Option.some.injEq]
      have listed := list_eq (run history) cut
      refine ⟨?_, ?_, ?_, ?_⟩
      · rw [found, node_is_some_run, isRoot]
        simp
      · intro node here
        refine ⟨place, rfl, ?_⟩
        rw [listed]
        refine ⟨?_, mem_child_names_run history place, child_names_run_in_order history place,
          child_names_run_free history place, ?_⟩
        · rw [child_names_run]
          exact nodup_erase_dups _
        · intro name
          rw [found] at here
          rw [child_is_some_iff, childNames, here]
          rfl
      · intro missing
        rw [found] at missing
        rw [listed, childNames, missing]
        rfl
      · intro there
        rw [found] at there
        rw [insert, cut]
        exact congrArg Except.ok (alter_id_of_node (run history) there)

def sampleGrowth : List (Operation Nat) :=
  [.insert "/b//c", .put "/b/a" 1]

theorem sample_growth_shape :
    ((run sampleGrowth).find? "/b").isSome = true ∧ ((run sampleGrowth).list "/b").Nodup ∧
      (run sampleGrowth).insert "/b" = .ok (run sampleGrowth) ∧
      (run sampleGrowth).find? "/b/c" = none ∧ (run sampleGrowth).list "/b/c" = [] := by
  have shape := shape_is_prefix_closure sampleGrowth "/b"
  have there : ((run sampleGrowth).find? "/b").isSome = true := by decide
  have missing : (run sampleGrowth).find? "/b/c" = none := by decide
  obtain ⟨node, found⟩ := Option.isSome_iff_exists.mp there
  obtain ⟨place, -, once, -⟩ := shape.2.1 node found
  exact ⟨there, once, shape.2.2.2 there, missing,
    (shape_is_prefix_closure sampleGrowth "/b/c").2.2.1 missing⟩

end ArchiveBrowser.Trie

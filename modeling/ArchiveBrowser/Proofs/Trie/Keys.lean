import ArchiveBrowser.Proofs.Trie.Alter
import Mathlib.Data.List.Nodup

/-!
# The segment lists that carry payloads

`Trie.keys` lists them. Where siblings have names of their own, which every alteration
keeps so, no list of segments occurs twice, and the payloads that are counted are those
that are found.
-/

set_option autoImplicit false

namespace ArchiveBrowser

variable {α : Type}

namespace Forest

/-- No two siblings share a name, at any level. -/
def Distinct : Forest α → Prop
  | nil => True
  | node name _ children siblings =>
    name ∉ siblings.names ∧ children.Distinct ∧ siblings.Distinct

/-- The segments that lead from a row to a payload, once for each payload. -/
def keys : Forest α → List (List String)
  | nil => []
  | node name payload children siblings =>
    (if payload.isSome then [[name]] else []) ++ children.keys.map (name :: ·) ++ siblings.keys

private theorem distinct_branch (change : Option α → Option α) (segment : String)
    (rest : List String) : (branch change segment rest).Distinct := by
  induction rest generalizing segment with
  | nil => simp [branch, Distinct, names]
  | cons next later ih => simp [branch, Distinct, names, ih]

theorem distinct_alter (change : Option α → Option α) (forest : Forest α) (segment : String)
    (rest : List String) (distinct : forest.Distinct) :
    (forest.alter change segment rest).Distinct := by
  induction forest generalizing segment rest with
  | nil => exact distinct_branch change segment rest
  | node name payload children siblings childrenIh siblingsIh =>
      obtain ⟨unused, childrenDistinct, siblingsDistinct⟩ := distinct
      by_cases here : name = segment
      · subst here
        cases rest with
        | nil => simpa [alter, Distinct] using ⟨unused, childrenDistinct, siblingsDistinct⟩
        | cons next later =>
            simpa [alter, Distinct] using
              ⟨unused, childrenIh next later childrenDistinct, siblingsDistinct⟩
      · have stillUnused : name ∉ (siblings.alter change segment rest).names := by
          rw [names_alter]
          split <;> simp [unused, here]
        simpa [alter, here, Distinct] using
          ⟨stillUnused, childrenDistinct, siblingsIh segment rest siblingsDistinct⟩

theorem length_keys (forest : Forest α) : forest.keys.length = forest.payloadCount := by
  induction forest with
  | nil => rfl
  | node name payload children siblings childrenIh siblingsIh =>
      simp only [keys, payloadCount, List.length_append, List.length_map, childrenIh, siblingsIh]
      split <;> rfl

theorem mem_keys_node (name : String) (payload : Option α) (children siblings : Forest α)
    (key : List String) :
    key ∈ (node name payload children siblings).keys ↔
      (key = [name] ∧ payload.isSome = true) ∨
        (∃ rest ∈ children.keys, key = name :: rest) ∨ key ∈ siblings.keys := by
  cases payload <;> simp [keys, eq_comm]

theorem head_of_mem_keys {forest : Forest α} {key : List String} (member : key ∈ forest.keys) :
    ∃ name rest, key = name :: rest ∧ name ∈ forest.names := by
  induction forest with
  | nil => simp [keys] at member
  | node name payload children siblings childrenIh siblingsIh =>
      rcases (mem_keys_node name payload children siblings key).mp member with
        ⟨rfl, -⟩ | ⟨rest, -, rfl⟩ | beside
      · exact ⟨name, [], rfl, by simp [names]⟩
      · exact ⟨name, rest, rfl, by simp [names]⟩
      · obtain ⟨other, rest, rfl, listed⟩ := siblingsIh beside
        exact ⟨other, rest, rfl, by simp [names, listed]⟩

theorem nil_not_mem_keys (forest : Forest α) : [] ∉ forest.keys := by
  intro member
  obtain ⟨name, rest, same, -⟩ := head_of_mem_keys member
  cases same

theorem cons_not_mem_keys {forest : Forest α} {name : String} (unused : name ∉ forest.names)
    (rest : List String) : name :: rest ∉ forest.keys := by
  intro member
  obtain ⟨other, others, same, listed⟩ := head_of_mem_keys member
  cases same
  exact unused listed

theorem mem_keys_iff {forest : Forest α} (distinct : forest.Distinct) (segment : String)
    (rest : List String) :
    segment :: rest ∈ forest.keys ↔
      ((forest.node? segment rest).bind Trie.Node.payload).isSome = true := by
  induction forest generalizing segment rest with
  | nil => simp [keys, node?]
  | node name payload children siblings childrenIh siblingsIh =>
      obtain ⟨unused, childrenDistinct, siblingsDistinct⟩ := distinct
      rw [mem_keys_node]
      by_cases here : name = segment
      · subst here
        have notBeside := cons_not_mem_keys unused rest
        cases rest with
        | nil => simp [node?, notBeside, nil_not_mem_keys]
        | cons next later =>
            have below := childrenIh childrenDistinct next later
            simpa [node?, notBeside] using below
      · have different : segment ≠ name := Ne.symm here
        simpa [node?, here, different] using siblingsIh siblingsDistinct segment rest

theorem nodup_keys {forest : Forest α} (distinct : forest.Distinct) : forest.keys.Nodup := by
  induction forest with
  | nil => simp [keys]
  | node name payload children siblings childrenIh siblingsIh =>
      obtain ⟨unused, childrenDistinct, siblingsDistinct⟩ := distinct
      have below : (children.keys.map (name :: ·)).Nodup :=
        (childrenIh childrenDistinct).map List.cons_injective
      have apart : ∀ rest, name :: rest ∉ siblings.keys := cons_not_mem_keys unused
      have inner : (children.keys.map (name :: ·) ++ siblings.keys).Nodup := by
        rw [List.nodup_append]
        refine ⟨below, siblingsIh siblingsDistinct, ?_⟩
        intro key inChildren other beside same
        subst same
        obtain ⟨rest, -, rfl⟩ := List.mem_map.mp inChildren
        exact apart rest beside
      have outer : [name] ∉ children.keys.map (name :: ·) ++ siblings.keys := by
        simpa [apart] using nil_not_mem_keys children
      rw [keys, List.append_assoc]
      by_cases carries : payload.isSome
      · rw [if_pos carries]
        exact List.nodup_cons.mpr ⟨outer, inner⟩
      · rw [if_neg carries]
        exact inner

end Forest

namespace Trie

def keys (trie : Trie α) : List (List String) :=
  (if trie.payload.isSome then [[]] else []) ++ trie.children.keys

theorem length_keys (trie : Trie α) : trie.keys.length = trie.payloadCount := by
  simp only [keys, payloadCount, List.length_append, Forest.length_keys]
  split <;> rfl

theorem mem_keys_iff {trie : Trie α} (distinct : trie.children.Distinct) (key : List String) :
    key ∈ trie.keys ↔ ((trie.node? key).bind Node.payload).isSome = true := by
  cases key with
  | nil =>
      have notBelow := Forest.nil_not_mem_keys trie.children
      by_cases carries : trie.payload.isSome <;> simp [keys, node?, root, carries, notBelow]
  | cons segment rest =>
      rw [node?, ← Forest.mem_keys_iff distinct]
      by_cases carries : trie.payload.isSome <;> simp [keys, carries]

theorem nodup_keys {trie : Trie α} (distinct : trie.children.Distinct) : trie.keys.Nodup := by
  have below := Forest.nodup_keys distinct
  rw [keys]
  by_cases carries : trie.payload.isSome
  · rw [if_pos carries]
    exact List.nodup_cons.mpr ⟨Forest.nil_not_mem_keys trie.children, below⟩
  · rw [if_neg carries]
    exact below

theorem distinct_alter (change : Option α → Option α) {trie : Trie α}
    (distinct : trie.children.Distinct) (target : List String) :
    (trie.alter change target).children.Distinct := by
  cases target with
  | nil => exact distinct
  | cons segment rest => exact Forest.distinct_alter change trie.children segment rest distinct

end Trie

end ArchiveBrowser

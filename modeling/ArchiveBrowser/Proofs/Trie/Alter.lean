import ArchiveBrowser.Trie.Basic
import Mathlib.Data.List.Infix

/-!
# What altering a trie does to its nodes

Altering a trie at a list of segments is described by one equation, `Trie.node_alter`: the
nodes whose own segments are a beginning of that list are there afterwards and altered
with what is left of it, and no other node is touched. What payloads and children come to
follows from it. Nothing is assumed of the trie: where siblings share a name, looking up
and altering both take the first.
-/

set_option autoImplicit false

namespace ArchiveBrowser

variable {α : Type}

namespace Trie.Node

def fresh (name : String) : Node α :=
  { name, payload := none, children := .nil }

/-- Makes the nodes along `segments` below a node that are missing, and changes the payload
of the last. -/
def alter (change : Option α → Option α) (node : Node α) : (segments : List String) → Node α
  | [] => { node with payload := change node.payload }
  | segment :: rest => { node with children := node.children.alter change segment rest }

/-- What is at `place` after an alteration at `target`, if `before` was there until then. -/
def altered? (change : Option α → Option α) (before : Option (Node α))
    (target place : List String) : Option (Node α) :=
  match target.dropPrefix? place with
  | none => before
  | some below => some ((before.getD (fresh (place.getLast?.getD ""))).alter change below)

variable (change : Option α → Option α) (before : Option (Node α))

theorem altered_same_head (segment next : String) (target place : List String) :
    altered? change before (segment :: target) (segment :: next :: place) =
      altered? change before target (next :: place) := by
  simp [altered?, List.dropPrefix?]

theorem altered_other_head {segment other : String} (different : segment ≠ other)
    (target place : List String) :
    altered? change before (segment :: target) (other :: place) = before := by
  simp [altered?, List.dropPrefix?, different]

theorem altered_here (segment : String) (target : List String) :
    altered? change before (segment :: target) [segment] =
      some ((before.getD (fresh segment)).alter change target) := by
  simp [altered?, List.dropPrefix?]

end Trie.Node

namespace Forest

open Trie (Node)

variable (change : Option α → Option α)

theorem alter_nil (segment : String) (rest : List String) :
    (nil : Forest α).alter change segment rest =
      (node segment none nil nil).alter change segment rest := by
  cases rest <;> simp [alter, branch]

/-- The equation for a row, given what it says of the children and of the siblings of the
first node. -/
private theorem node_alter_step (name : String) (payload : Option α) (children siblings : Forest α)
    (segment : String) (rest : List String) (other : String) (others : List String)
    (below : ∀ next later start steps, rest = next :: later →
      (children.alter change next later).node? start steps =
        Node.altered? change (children.node? start steps) (next :: later) (start :: steps))
    (beside : name ≠ segment → (siblings.alter change segment rest).node? other others =
      Node.altered? change (siblings.node? other others) (segment :: rest) (other :: others)) :
    ((node name payload children siblings).alter change segment rest).node? other others =
      Node.altered? change ((node name payload children siblings).node? other others)
        (segment :: rest) (other :: others) := by
  by_cases here : name = segment
  · subst here
    by_cases found : name = other
    · subst found
      cases others with
      | nil =>
          rw [Node.altered_here]
          cases rest <;> simp [alter, node?, Node.alter]
      | cons start steps =>
          rw [Node.altered_same_head]
          cases rest with
          | nil => simp [alter, node?, Node.altered?, List.dropPrefix?]
          | cons next later =>
              simpa [alter, node?] using below next later start steps rfl
    · rw [Node.altered_other_head _ _ found]
      cases rest <;> simp [alter, node?, found]
  · by_cases found : name = other
    · subst found
      rw [Node.altered_other_head _ _ (Ne.symm here)]
      simp [alter, node?, here]
    · simpa [alter, node?, here, found] using beside here

private theorem altered_of_fresh (segment : String) (rest : List String) (other : String)
    (others : List String) :
    Node.altered? change ((node segment none nil nil).node? other others)
        (segment :: rest) (other :: others) =
      Node.altered? change none (segment :: rest) (other :: others) := by
  by_cases found : segment = other
  · subst found
    cases others with
    | nil =>
        rw [Node.altered_here, Node.altered_here]
        simp [node?, Node.fresh]
    | cons start steps => simp [node?]
  · rw [Node.altered_other_head _ _ found, Node.altered_other_head _ _ found]
    simp [node?, found]

private theorem node_alter_empty (segment : String) (rest : List String) (other : String)
    (others : List String) :
    ((nil : Forest α).alter change segment rest).node? other others =
      Node.altered? change none (segment :: rest) (other :: others) := by
  induction rest generalizing segment other others with
  | nil =>
      rw [alter_nil, ← altered_of_fresh]
      apply node_alter_step
      · intro next later start steps impossible
        cases impossible
      · intro different
        exact absurd rfl different
  | cons next later ih =>
      rw [alter_nil, ← altered_of_fresh]
      apply node_alter_step
      · intro following later start steps same
        cases same
        exact ih next start steps
      · intro different
        exact absurd rfl different

theorem node_alter (forest : Forest α) (segment : String) (rest : List String) (other : String)
    (others : List String) :
    (forest.alter change segment rest).node? other others =
      Node.altered? change (forest.node? other others) (segment :: rest) (other :: others) := by
  induction forest generalizing segment rest other others with
  | nil => exact node_alter_empty change segment rest other others
  | node name payload children siblings childrenIh siblingsIh =>
      apply node_alter_step
      · intro next later start steps _
        exact childrenIh next later start steps
      · intro _
        exact siblingsIh segment rest other others

theorem names_alter (forest : Forest α) (segment : String) (rest : List String) :
    (forest.alter change segment rest).names =
      if segment ∈ forest.names then forest.names else forest.names ++ [segment] := by
  induction forest with
  | nil => cases rest <;> simp [alter, branch, names]
  | node name payload children siblings childrenIh siblingsIh =>
      by_cases here : name = segment
      · subst here
        cases rest <;> simp [alter, names]
      · have different : segment ≠ name := Ne.symm here
        simp only [alter, here, if_false, names, siblingsIh, List.mem_cons, different, false_or]
        split <;> simp

theorem node_is_some_iff (forest : Forest α) (name : String) :
    (forest.node? name []).isSome = true ↔ name ∈ forest.names := by
  induction forest with
  | nil => simp [node?, names]
  | node other payload children siblings childrenIh siblingsIh =>
      by_cases here : other = name
      · simp [node?, names, here]
      · have different : name ≠ other := Ne.symm here
        simpa [node?, names, here, different] using siblingsIh

/-- An alteration that leaves payloads alone changes nothing where the nodes are there. -/
theorem alter_id_of_node (forest : Forest α) (segment : String) (rest : List String)
    (there : (forest.node? segment rest).isSome = true) :
    forest.alter id segment rest = forest := by
  induction forest generalizing segment rest with
  | nil => simp [node?] at there
  | node name payload children siblings childrenIh siblingsIh =>
      by_cases here : name = segment
      · subst here
        cases rest with
        | nil => simp [alter]
        | cons next later =>
            have inside : (children.node? next later).isSome = true := by simpa [node?] using there
            simp [alter, childrenIh next later inside]
      · have beside : (siblings.node? segment rest).isSome = true := by
          simpa [node?, here] using there
        simp [alter, here, siblingsIh segment rest beside]

theorem alter_alter (first second : Option α → Option α) (forest : Forest α) (segment : String)
    (rest : List String) :
    (forest.alter first segment rest).alter second segment rest =
      forest.alter (fun payload => second (first payload)) segment rest := by
  induction forest generalizing segment rest with
  | nil =>
      simp only [alter]
      induction rest generalizing segment with
      | nil => simp [branch, alter]
      | cons next later ih => simp [branch, alter, ih]
  | node name payload children siblings childrenIh siblingsIh =>
      by_cases here : name = segment
      · subst here
        cases rest <;> simp [alter, childrenIh]
      · simp [alter, here, siblingsIh]

end Forest

namespace Trie

variable (change : Option α → Option α) (trie : Trie α)

/-- Every node of an altered trie, in terms of the node that was there before. -/
theorem node_alter (target place : List String) :
    (trie.alter change target).node? place =
      Node.altered? change (trie.node? place) target place := by
  cases place with
  | nil => cases target <;> simp [node?, alter, root, Node.altered?, Node.alter, List.dropPrefix?]
  | cons segment rest =>
      cases target with
      | nil => simp [node?, alter, Node.altered?, List.dropPrefix?]
      | cons first others => exact Forest.node_alter change trie.children first others segment rest

theorem drop_prefix_eq_some {target place below : List String} :
    target.dropPrefix? place = some below ↔ target = place ++ below := by
  simp [List.dropPrefix?_eq_some_iff]

theorem drop_prefix_eq_none {target place : List String} :
    target.dropPrefix? place = none ↔ ¬place <+: target := by
  rw [Option.eq_none_iff_forall_ne_some]
  constructor
  · intro noneLeft leads
    obtain ⟨below, same⟩ := leads
    exact noneLeft below (drop_prefix_eq_some.mpr same.symm)
  · intro outside below leftOver
    exact outside ⟨below, (drop_prefix_eq_some.mp leftOver).symm⟩

theorem node_is_some_alter (target place : List String) :
    ((trie.alter change target).node? place).isSome = true ↔
      place <+: target ∨ (trie.node? place).isSome = true := by
  rw [node_alter, Node.altered?]
  cases leftOver : target.dropPrefix? place with
  | none => simp [drop_prefix_eq_none.mp leftOver]
  | some below =>
      have inside : place <+: target := ⟨below, (drop_prefix_eq_some.mp leftOver).symm⟩
      simp [inside]

theorem payload_alter (target place : List String) :
    ((trie.alter change target).node? place).bind Node.payload =
      if place = target then change ((trie.node? place).bind Node.payload)
      else (trie.node? place).bind Node.payload := by
  rw [node_alter, Node.altered?]
  cases leftOver : target.dropPrefix? place with
  | none =>
      have different : place ≠ target := by
        intro same
        subst same
        exact drop_prefix_eq_none.mp leftOver (List.prefix_refl place)
      rw [if_neg different]
  | some below =>
      have same := drop_prefix_eq_some.mp leftOver
      cases below with
      | nil =>
          have here : place = target := by simpa using same.symm
          rw [if_pos here]
          cases trie.node? place <;> rfl
      | cons segment rest =>
          have different : place ≠ target := by
            intro here
            simp [here] at same
          rw [if_neg different]
          cases trie.node? place <;> rfl

theorem alter_id_of_node {place : List String} (there : (trie.node? place).isSome = true) :
    trie.alter id place = trie := by
  cases place with
  | nil => rfl
  | cons segment rest => simp [alter, Forest.alter_id_of_node trie.children segment rest there]

theorem alter_alter (first second : Option α → Option α) (place : List String) :
    (trie.alter first place).alter second place =
      trie.alter (fun payload => second (first payload)) place := by
  cases place with
  | nil => rfl
  | cons segment rest => simp [alter, Forest.alter_alter]

def childNames (place : List String) : List String :=
  ((trie.node? place).map fun node => node.children.names).getD []

def nextSegment? (target place : List String) : Option String :=
  (target.dropPrefix? place).bind List.head?

theorem next_segment_eq_some {target place : List String} {segment : String} :
    nextSegment? target place = some segment ↔ place ++ [segment] <+: target := by
  unfold nextSegment?
  constructor
  · intro next
    obtain ⟨below, leftOver, head⟩ := Option.bind_eq_some_iff.mp next
    obtain ⟨rest, rfl⟩ := List.head?_eq_some_iff.mp head
    exact ⟨rest, by simp [drop_prefix_eq_some.mp leftOver]⟩
  · intro leads
    obtain ⟨rest, rfl⟩ := leads
    have leftOver : (place ++ [segment] ++ rest).dropPrefix? place = some (segment :: rest) :=
      drop_prefix_eq_some.mpr (by simp)
    rw [leftOver]
    rfl

/-- The list with a name behind it, unless there is none or it is there already. -/
def withName (names : List String) : Option String → List String
  | none => names
  | some name => if name ∈ names then names else names ++ [name]

/-- An alteration adds at most one name to a row of children, behind those it has. -/
theorem child_names_alter (target place : List String) :
    (trie.alter change target).childNames place =
      withName (trie.childNames place) (nextSegment? target place) := by
  unfold childNames nextSegment?
  rw [node_alter, Node.altered?]
  cases leftOver : target.dropPrefix? place with
  | none => rfl
  | some below =>
      cases below with
      | nil => cases trie.node? place <;> rfl
      | cons segment rest =>
          cases trie.node? place <;>
            simp [Node.alter, Node.fresh, Forest.names_alter, Forest.names, withName]

end Trie

end ArchiveBrowser

/-!
# Forests

The siblings below one node of a path trie, in the order in which they came to be.
A forest is either empty or a first node, with what is below it and what is beside
it. Siblings are looked up by name, and the first that matches counts.
-/

set_option autoImplicit false

namespace ArchiveBrowser

inductive Forest (α : Type) where
  | nil
  | node (name : String) (payload : Option α) (children siblings : Forest α)
  deriving DecidableEq

namespace Forest

variable {α : Type}

def names : Forest α → List String
  | nil => []
  | node name _ _ siblings => name :: siblings.names

def isEmpty : Forest α → Bool
  | nil => true
  | node .. => false

def payloadCount : Forest α → Nat
  | nil => 0
  | node _ payload children siblings =>
    (if payload.isSome then 1 else 0) + children.payloadCount + siblings.payloadCount

/-- Every node with its depth, where the row has the depth `depth`; a node comes before
those below it, and these before its later siblings. -/
def preorder (depth : Nat) : Forest α → List (Nat × String × Option α)
  | nil => []
  | node name payload children siblings =>
    (depth, name, payload) :: (children.preorder (depth + 1) ++ siblings.preorder depth)

/-- A node without siblings for `segment`, and below it one for each of `rest` in turn;
the last has the payload that `change` makes of none. -/
def branch (change : Option α → Option α) (segment : String) : (rest : List String) → Forest α
  | [] => node segment (change none) nil nil
  | next :: rest => node segment none (branch change next rest) nil

/-- Follows `segment` and then `rest`, makes the nodes that are missing after the
siblings that are there, and changes the payload of the last node. -/
def alter (change : Option α → Option α) (segment : String) (rest : List String) :
    Forest α → Forest α
  | nil => branch change segment rest
  | node name payload children siblings =>
    if name = segment then
      match rest with
      | [] => node name (change payload) children siblings
      | next :: rest => node name payload (children.alter change next rest) siblings
    else node name payload children (siblings.alter change segment rest)

end Forest

end ArchiveBrowser

import ArchiveBrowser.Error
import ArchiveBrowser.Path.Segments
import ArchiveBrowser.Trie.Forest

/-!
# Path tries

A tree of path segments with payloads, which answers for a flat list of paths what
a directory tree would answer. Paths start with a slash and are taken literally:
neither `.` nor `..` is resolved, and repeated slashes make empty segments.
-/

set_option autoImplicit false

namespace ArchiveBrowser

structure Trie.Node (α : Type) where
  name : String
  payload : Option α
  children : Forest α
  deriving DecidableEq

structure Trie (α : Type) where
  payload : Option α
  children : Forest α
  deriving DecidableEq

namespace Forest

variable {α : Type}

def node? (segment : String) (rest : List String) : Forest α → Option (Trie.Node α)
  | nil => none
  | node name payload children siblings =>
    if name = segment then
      match rest with
      | [] => some { name, payload, children }
      | next :: rest => children.node? next rest
    else siblings.node? segment rest

end Forest

namespace Trie

variable {α : Type}

namespace Node

def child? (node : Node α) (name : String) : Option (Node α) :=
  node.children.node? name []

def isLeaf (node : Node α) : Bool :=
  node.children.isEmpty

end Node

def empty : Trie α :=
  { payload := none, children := .nil }

def root (trie : Trie α) : Node α :=
  { name := "", payload := trie.payload, children := trie.children }

def isEmpty (trie : Trie α) : Bool :=
  trie.children.isEmpty

def node? (trie : Trie α) : (segments : List String) → Option (Node α)
  | [] => some trie.root
  | segment :: rest => trie.children.node? segment rest

/-- Makes the nodes along `segments` that are missing, and changes the payload of the
last. -/
def alter (trie : Trie α) (change : Option α → Option α) : (segments : List String) → Trie α
  | [] => { trie with payload := change trie.payload }
  | segment :: rest => { trie with children := trie.children.alter change segment rest }

def find? (trie : Trie α) (path : String) : Option (Node α) :=
  (Path.segments? path).bind trie.node?

def payload? (trie : Trie α) (path : String) : Option α :=
  (trie.find? path).bind Node.payload

/-- The names below a path, in the order in which they came to be. -/
def list (trie : Trie α) (path : String) : List String :=
  ((trie.find? path).map fun node => node.children.names).getD []

def insert (trie : Trie α) (path : String) : Except Error (Trie α) :=
  match Path.segments? path with
  | none => .error (.invalidPath path)
  | some segments => .ok (trie.alter id segments)

/-- Gives a payload to a path that has a node; tells whether it has. -/
def attach (trie : Trie α) (path : String) (value : α) : Bool × Trie α :=
  match Path.segments? path with
  | none => (false, trie)
  | some segments =>
    if (trie.node? segments).isSome then (true, trie.alter (fun _ => some value) segments)
    else (false, trie)

/-- Makes the node of a path and gives it a payload, in place of the one that is
returned. -/
def put (trie : Trie α) (path : String) (value : α) : Except Error (Option α × Trie α) :=
  match trie.insert path with
  | .error error => .error error
  | .ok made => .ok (made.payload? path, (made.attach path value).2)

def payloadCount (trie : Trie α) : Nat :=
  (if trie.payload.isSome then 1 else 0) + trie.children.payloadCount

def preorder (trie : Trie α) : List (Nat × String × Option α) :=
  (0, "", trie.payload) :: trie.children.preorder 1

end Trie

end ArchiveBrowser

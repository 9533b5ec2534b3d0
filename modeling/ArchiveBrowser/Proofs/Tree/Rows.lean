import ArchiveBrowser.Proofs.Text.ByteOrder
import ArchiveBrowser.Proofs.Tree.Calls
import ArchiveBrowser.Proofs.Tree.Lines
import ArchiveBrowser.Proofs.Zip.Navigation

/-!
# The rows of a tree

What a drawing of the tree below a node has to look like, said without drawing it: which
places have a row, in which order, and what is on the row of a place. Places are ordered as
lists of segments, and these by their bytes, so that a place comes before what is below it,
and that before the later siblings of the place.
-/

set_option autoImplicit false

namespace ArchiveBrowser.Trie.Node

variable {α : Type}

def leadsOn (node : Node α) (place : List String) : Bool :=
  ((node.below? place).map fun found => !found.isLeaf).getD false

def siblings (node : Node α) (place : List String) : List String :=
  ((node.below? place.dropLast).map fun holder => holder.children.names).getD []

def nameAt (place : List String) : String :=
  place.getLast?.getD ""

/-- By their bytes no sibling comes after the node at the place. -/
def isLast (node : Node α) (place : List String) : Bool :=
  (node.siblings place).all fun other => ¬Bytes.ofText (nameAt place) < Bytes.ofText other

/-- For each node on the way to the place, outermost first, whether it is the last of its
siblings. -/
def lasts (node : Node α) (place : List String) : List Bool :=
  (List.range (place.length - 1)).map fun level => node.isLast (place.take (level + 1))

def row (node : Node α) (place : List String) : String :=
  String.join ((node.lasts place).map fun last => if last then "    " else "│   ") ++
    (if node.isLast place then "└── " else "├── ") ++ nameAt place ++
    if node.leadsOn place then "/" else ""

/-- The places that have these names right below the node, and all that is below them. -/
structure RowsOf (node : Node α) (names : List String) (places : List (List String)) : Prop where
  complete : ∀ place, place ∈ places ↔
    (∃ name ∈ names, ∃ rest, place = name :: rest) ∧ (node.below? place).isSome = true
  in_order : places.Pairwise fun first second =>
    first.map Bytes.ofText < second.map Bytes.ofText

/-- All places below the node, each once. -/
structure Rows (node : Node α) (places : List (List String)) : Prop where
  complete : ∀ place, place ∈ places ↔ place ≠ [] ∧ (node.below? place).isSome = true
  in_order : places.Pairwise fun first second =>
    first.map Bytes.ofText < second.map Bytes.ofText

/-! ## One level further down -/

theorem below_cons (node : Node α) (name : String) (rest : List String) :
    node.below? (name :: rest) = (node.child? name).bind (·.below? rest) :=
  Forest.node_append node.children name [] rest

variable {node child : Node α} {name : String}

theorem leads_on_cons (isChild : node.child? name = some child) (rest : List String) :
    node.leadsOn (name :: rest) = child.leadsOn rest := by
  rw [leadsOn, below_cons, isChild, Option.bind_some, leadsOn]

theorem leads_on_child (isChild : node.child? name = some child) :
    node.leadsOn [name] = !child.isLeaf := by
  rw [leads_on_cons isChild]
  rfl

theorem name_at_cons {rest : List String} (nonempty : rest ≠ []) :
    nameAt (name :: rest) = nameAt rest := by
  unfold nameAt
  rw [List.getLast?_cons, List.getLast?_eq_some_getLast nonempty]
  rfl

theorem is_last_cons (isChild : node.child? name = some child) {rest : List String}
    (nonempty : rest ≠ []) : node.isLast (name :: rest) = child.isLast rest := by
  have siblings : node.siblings (name :: rest) = child.siblings rest := by
    unfold siblings
    rw [List.dropLast_cons_of_ne_nil nonempty, below_cons, isChild, Option.bind_some]
  rw [isLast, isLast, siblings, name_at_cons nonempty]

theorem lasts_cons (isChild : node.child? name = some child) {rest : List String}
    (nonempty : rest ≠ []) :
    node.lasts (name :: rest) = node.isLast [name] :: child.lasts rest := by
  have positive := List.length_pos_iff.mpr nonempty
  have levels : (name :: rest).length - 1 = rest.length - 1 + 1 := by
    rw [List.length_cons]
    omega
  unfold lasts
  rw [levels, List.range_succ_eq_map, List.map_cons, List.map_map]
  congr 1
  apply List.map_congr_left
  intro level inside
  have deeper : rest.take (level + 1) ≠ [] := by simp [nonempty]
  exact is_last_cons isChild deeper

/-- The line that a drawing has for the place, below a node with these above it. -/
def lineOf (node : Node α) (above : List Bool) (place : List String) : Tree.Line where
  above := above ++ node.lasts place
  isLast := node.isLast place
  name := nameAt place
  isDirectory := node.leadsOn place

theorem line_of_cons (isChild : node.child? name = some child) (above : List Bool)
    {rest : List String} (nonempty : rest ≠ []) :
    node.lineOf above (name :: rest) = child.lineOf (above ++ [node.isLast [name]]) rest := by
  unfold lineOf
  rw [lasts_cons isChild nonempty, is_last_cons isChild nonempty, name_at_cons nonempty,
    leads_on_cons isChild, List.append_assoc, List.singleton_append]

/-- The lines of a child and of all that is below it. -/
theorem lines_of_child {belows : List (List String)} (isChild : node.child? name = some child)
    (rows : child.Rows belows) (above : List Bool) :
    ([name] :: belows.map (name :: ·)).map (node.lineOf above) =
      { above, isLast := node.isLast [name], name, isDirectory := node.leadsOn [name] } ::
        belows.map (child.lineOf (above ++ [node.isLast [name]])) := by
  have own : node.lineOf above [name] =
      { above, isLast := node.isLast [name], name, isDirectory := node.leadsOn [name] } := by
    have outermost : node.lasts [name] = [] := rfl
    unfold lineOf
    rw [outermost, List.append_nil]
    rfl
  rw [List.map_cons, List.map_map, own]
  congr 1
  apply List.map_congr_left
  intro rest inside
  exact line_of_cons isChild above ((rows.complete rest).mp inside).1

theorem render_line_of (node : Node α) (place : List String) :
    (node.lineOf [] place).render = node.row place ++ "\n" :=
  (node.lineOf [] place).render_eq

/-! ## The rows of a listing -/

theorem rows_of_nil (node : Node α) : node.RowsOf [] [] := by
  constructor
  · simp
  · exact .nil

theorem before_later {name other : String} (before : Bytes.ofText name < Bytes.ofText other)
    (rest more : List String) :
    (name :: rest).map Bytes.ofText < (other :: more).map Bytes.ofText := by
  rw [List.map_cons, List.map_cons, List.cons_lt_cons_iff]
  exact .inl before

theorem before_below {name : String} {rest more : List String}
    (before : rest.map Bytes.ofText < more.map Bytes.ofText) :
    (name :: rest).map Bytes.ofText < (name :: more).map Bytes.ofText := by
  rw [List.map_cons, List.map_cons, List.cons_lt_cons_iff]
  exact .inr ⟨rfl, before⟩

theorem rows_of_cons {names : List String} {belows places : List (List String)}
    (isChild : node.child? name = some child) (below : child.Rows belows)
    (later : node.RowsOf names places)
    (first : ∀ other ∈ names, Bytes.ofText name < Bytes.ofText other) :
    node.RowsOf (name :: names) ([name] :: belows.map (name :: ·) ++ places) := by
  constructor
  · intro place
    rw [List.cons_append, List.mem_cons, List.mem_append, List.mem_map]
    constructor
    · rintro (rfl | ⟨rest, inside, rfl⟩ | inside)
      · refine ⟨⟨name, List.mem_cons_self, [], rfl⟩, ?_⟩
        rw [below_cons, isChild]
        rfl
      · refine ⟨⟨name, List.mem_cons_self, rest, rfl⟩, ?_⟩
        rw [below_cons, isChild]
        exact ((below.complete rest).mp inside).2
      · obtain ⟨⟨other, member, rest, split⟩, there⟩ := (later.complete place).mp inside
        exact ⟨⟨other, List.mem_cons_of_mem name member, rest, split⟩, there⟩
    · rintro ⟨⟨other, member, rest, rfl⟩, there⟩
      rcases List.mem_cons.mp member with rfl | member
      · by_cases nonempty : rest = []
        · exact .inl (by rw [nonempty])
        · rw [below_cons, isChild] at there
          exact .inr (.inl ⟨rest, (below.complete rest).mpr ⟨nonempty, there⟩, rfl⟩)
      · exact .inr (.inr ((later.complete _).mpr ⟨⟨other, member, rest, rfl⟩, there⟩))
  · have behind : ∀ rest, ∀ place ∈ places,
        (name :: rest).map Bytes.ofText < place.map Bytes.ofText := by
      intro rest place inside
      obtain ⟨⟨other, member, more, rfl⟩, -⟩ := (later.complete place).mp inside
      exact before_later (first other member) rest more
    rw [List.cons_append, List.pairwise_cons, List.pairwise_append, List.pairwise_map]
    refine ⟨?_, ?_, later.in_order, ?_⟩
    · intro place member
      rcases List.mem_append.mp member with under | inside
      · obtain ⟨rest, inside, rfl⟩ := List.mem_map.mp under
        apply before_below
        obtain ⟨segment, more, split⟩ :=
          List.exists_cons_of_ne_nil ((below.complete rest).mp inside).1
        rw [split]
        exact List.nil_lt_cons _ _
      · exact behind [] place inside
    · exact below.in_order.imp before_below
    · intro upper under lower inside
      obtain ⟨rest, -, rfl⟩ := List.mem_map.mp under
      exact behind rest lower inside

theorem below_of_leaf {node : Node α} (leaf : node.isLeaf = true) (segment : String)
    (rest : List String) : node.below? (segment :: rest) = none := by
  rw [isLeaf] at leaf
  rw [below?]
  cases children : node.children with
  | nil => rfl
  | node =>
      rw [children] at leaf
      cases leaf

theorem rows_of_leaf {node : Node α} (leaf : node.isLeaf = true) : node.Rows [] := by
  constructor
  · intro place
    cases place with
    | nil => simp
    | cons segment rest => simp [below_of_leaf leaf]
  · exact .nil

theorem rows_of_all {places : List (List String)} (node : Node α)
    {names : List String} (same : ∀ name, name ∈ names ↔ name ∈ node.children.names)
    (rows : node.RowsOf names places) : node.Rows places := by
  constructor
  · intro place
    rw [rows.complete]
    constructor
    · rintro ⟨⟨name, -, rest, rfl⟩, there⟩
      exact ⟨List.cons_ne_nil name rest, there⟩
    · rintro ⟨nonempty, there⟩
      obtain ⟨name, rest, rfl⟩ := List.exists_cons_of_ne_nil nonempty
      refine ⟨⟨name, (same name).mpr ?_, rest, rfl⟩, there⟩
      rw [below_cons] at there
      rw [← Trie.child_is_some_iff]
      cases isChild : node.child? name with
      | none =>
          rw [isChild] at there
          cases there
      | some child => rfl
  · exact rows.in_order

end ArchiveBrowser.Trie.Node

namespace ArchiveBrowser.Tree

variable {α : Type}

/-- If the drawing comes to its end, its lines are those of all places below the node. -/
def Draws (node : Trie.Node α) (above : List Bool) (drawing : Drawing) : Prop :=
  drawing.ending = .complete →
    ∃ places, node.Rows places ∧ drawing.lines = places.map (node.lineOf above)

theorem Drawing.lines_above {upper lower : Drawing}
    (complete : (upper.above lower).ending = .complete) :
    (upper.above lower).lines = upper.lines ++ lower.lines := by
  have ended := ((Drawing.above_complete upper lower).mp complete).1
  unfold above
  rw [ended]

/-- The last of the names that are still to be drawn is the last of the siblings. -/
theorem is_last_of_sorted {node : Trie.Node α} {name : String} {names : List String}
    (ordered : (name :: names).Pairwise fun first second =>
      Bytes.ofText first < Bytes.ofText second)
    (listed : ∀ other ∈ names, other ∈ node.children.names)
    (drawn : ∀ other ∈ node.children.names, other ∈ name :: names ∨
      Bytes.ofText other < Bytes.ofText name) :
    node.isLast [name] = names.isEmpty := by
  have siblings : node.siblings [name] = node.children.names := rfl
  have own : Trie.Node.nameAt [name] = name := rfl
  rw [Trie.Node.isLast, siblings, own]
  cases names with
  | nil =>
      rw [List.isEmpty_nil, List.all_eq_true]
      intro other member
      rw [decide_eq_true_eq]
      rcases drawn other member with same | before
      · rw [List.mem_singleton.mp same]
        exact List.lt_irrefl _
      · exact List.lt_asymm before
  | cons next names =>
      rw [List.isEmpty_cons, List.all_eq_false]
      refine ⟨next, listed next List.mem_cons_self, ?_⟩
      have first := List.rel_of_pairwise_cons ordered (List.mem_cons_self (a := next) (l := names))
      simpa using first

/-- Nothing is drawn below a child without children. -/
theorem draws_child {node child : Trie.Node α} {name : String} {above : List Bool}
    {drawing : Drawing} (isChild : node.child? name = some child)
    (draws : Draws child above drawing) :
    Draws child above (if node.leadsOn [name] then drawing else .ended .complete) := by
  split
  · exact draws
  · rename_i ending
    intro ended
    have leaf : child.isLeaf = true := by
      rw [Trie.Node.leads_on_child isChild] at ending
      simpa using ending
    exact ⟨[], Trie.Node.rows_of_leaf leaf, rfl⟩

/-- What is drawn for the names of a listing in order. -/
theorem draw_entries_rows {archive : Archive} {directory : String} {node : Trie.Node α}
    {above : List Bool} {below : String → List Bool → Drawing} {names : List String}
    (ordered : names.Pairwise fun first second => Bytes.ofText first < Bytes.ofText second)
    (listed : ∀ name ∈ names, name ∈ node.children.names)
    (drawn : ∀ other ∈ node.children.names, other ∈ names ∨
      ∀ name ∈ names, Bytes.ofText other < Bytes.ofText name)
    (told : ∀ name ∈ names,
      archive.isDirectory (Path.child directory name) = .ok (node.leadsOn [name]))
    (draws : ∀ name ∈ names, ∀ child, node.child? name = some child → ∀ lasts,
      Draws child lasts (below (Path.child directory name) lasts))
    (complete : (drawEntries archive below directory above names).ending = .complete) :
    ∃ places, node.RowsOf names places ∧
      (drawEntries archive below directory above names).lines =
        places.map (node.lineOf above) := by
  induction names with
  | nil => exact ⟨[], node.rows_of_nil, rfl⟩
  | cons name names ih =>
      have inside := listed name List.mem_cons_self
      obtain ⟨child, isChild⟩ :=
        Option.isSome_iff_exists.mp ((Trie.child_is_some_iff node name).mpr inside)
      have last : node.isLast [name] = names.isEmpty := by
        apply is_last_of_sorted ordered
        · intro other member
          exact listed other (List.mem_cons_of_mem name member)
        · intro other member
          exact (drawn other member).imp_right fun before => before name List.mem_cons_self
      simp only [drawEntries, told name List.mem_cons_self] at complete ⊢
      rw [Drawing.lines_above complete]
      obtain ⟨upper, lower⟩ := (Drawing.above_complete _ _).mp complete
      have drawnBelow := draws_child isChild
        (draws name List.mem_cons_self child isChild (above ++ [names.isEmpty]))
      have first : ∀ other ∈ names, Bytes.ofText name < Bytes.ofText other :=
        fun other member => List.rel_of_pairwise_cons ordered member
      have drawnLater : ∀ other ∈ node.children.names, other ∈ names ∨
          ∀ name ∈ names, Bytes.ofText other < Bytes.ofText name := by
        intro other member
        rcases drawn other member with same | before
        · rcases List.mem_cons.mp same with rfl | later
          · exact .inr first
          · exact .inl later
        · exact .inr fun next member => before next (List.mem_cons_of_mem name member)
      obtain ⟨belows, rows, lines⟩ := drawnBelow upper
      obtain ⟨places, later, rest⟩ := ih ordered.of_cons
        (fun other member => listed other (List.mem_cons_of_mem name member)) drawnLater
        (fun other member => told other (List.mem_cons_of_mem name member))
        (fun other member => draws other (List.mem_cons_of_mem name member)) lower
      refine ⟨[name] :: belows.map (name :: ·) ++ places,
        Trie.Node.rows_of_cons isChild rows later first, ?_⟩
      rw [List.map_append, Trie.Node.lines_of_child isChild rows, rest, last, ← lines]
      rfl

end ArchiveBrowser.Tree

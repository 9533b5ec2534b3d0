import ArchiveBrowser.Proofs.Path.Steps

/-!
# Paths from one place to another

A place is a list of components, and `takeSteps` moves from it without looking anything up: `..`
leaves the last component, a name goes below it. The way that `relative` writes down leads from
the one path to the other, out as far as the two have a beginning in common and in again, and no
way is shorter: whatever is kept of the start on some way is a common beginning.
-/

set_option autoImplicit false

namespace ArchiveBrowser.Path

def takeStep (place : List Component) : Component → List Component
  | .root => [.root]
  | .current => place
  | .parent => place.dropLast
  | .name text => place ++ [.name text]

def takeSteps (place steps : List Component) : List Component :=
  steps.foldl takeStep place

def Component.isMove : Component → Bool
  | parent | name _ => true
  | root | current => false

/-- A path that means the same wherever it is read: there is no `..` in it and no `.` at its
start. -/
structure IsStraight (path : String) : Prop where
  no_parent : Component.parent ∉ components path
  no_current : Component.current ∉ components path

/-- The longest list that both begin with. -/
structure IsSharedFront (shared first second : List Component) : Prop where
  of_first : shared <+: first
  of_second : shared <+: second
  longest : ∀ other, other <+: first → other <+: second → other.length ≤ shared.length

/-! ## Ways between lists of components -/

theorem take_steps_cons (place : List Component) (step : Component) (steps : List Component) :
    takeSteps place (step :: steps) = takeSteps (takeStep place step) steps := rfl

theorem take_steps_append (place steps more : List Component) :
    takeSteps place (steps ++ more) = takeSteps (takeSteps place steps) more :=
  List.foldl_append

theorem take_steps_out (place : List Component) (count : Nat) :
    takeSteps place (List.replicate count .parent) = place.take (place.length - count) := by
  induction count generalizing place with
  | zero => rw [Nat.sub_zero, List.take_length]; rfl
  | succ count ih =>
      rw [List.replicate_succ, take_steps_cons, ih, takeStep, List.length_dropLast,
        List.dropLast_eq_take, List.take_take]
      congr 1
      omega

theorem take_steps_in (place : List Component) (names : List String) :
    takeSteps place (names.map .name) = place ++ names.map .name := by
  induction names generalizing place with
  | nil => exact (List.append_nil place).symm
  | cons text names ih =>
      rw [List.map_cons, take_steps_cons, ih, takeStep, List.append_assoc]
      rfl

/-- On any way something is kept of the place where it starts, and to leave the rest and to enter
what is new takes a step for each component. -/
theorem exists_kept (place : List Component) {steps : List Component}
    (moves : ∀ step ∈ steps, step.isMove = true) :
    ∃ kept, kept <+: place ∧ kept <+: takeSteps place steps ∧
      place.length + (takeSteps place steps).length ≤ 2 * kept.length + steps.length := by
  induction steps generalizing place with
  | nil =>
      refine ⟨place, List.prefix_rfl, List.prefix_rfl, ?_⟩
      simp only [takeSteps, List.foldl_nil, List.length_nil]
      omega
  | cons step steps ih =>
      have later : ∀ step ∈ steps, step.isMove = true :=
        fun other member => moves other (List.mem_cons_of_mem _ member)
      obtain ⟨kept, before, behind, length⟩ := ih (takeStep place step) later
      rw [take_steps_cons, List.length_cons]
      cases step with
      | root | current =>
          have move := moves _ List.mem_cons_self
          cases move
      | parent =>
          have left : (takeStep place .parent).length = place.length - 1 := List.length_dropLast
          exact ⟨kept, before.trans (List.dropLast_prefix place), behind, by omega⟩
      | name text =>
          have entered : (takeStep place (.name text)).length = place.length + 1 :=
            List.length_append
          rcases List.prefix_concat_iff.mp before with whole | part
          · -- All of the new place is kept, and so is all of the old one.
            have all : kept.length = place.length + 1 := by rw [whole, List.length_append]; rfl
            rw [whole] at behind
            exact ⟨place, List.prefix_rfl, (List.prefix_append _ _).trans behind, by omega⟩
          · exact ⟨kept, part, behind, by omega⟩

theorem common_length_le (first second : List Component) :
    commonLength first second ≤ first.length ∧ commonLength first second ≤ second.length := by
  induction first generalizing second with
  | nil => simp [commonLength]
  | cons step rest ih =>
      cases second with
      | nil => simp [commonLength]
      | cons other others =>
          have both := ih others
          rw [commonLength]
          split
          · simp only [List.length_cons]
            omega
          · omega

theorem take_common_length (first second : List Component) :
    first.take (commonLength first second) = second.take (commonLength first second) := by
  induction first generalizing second with
  | nil => simp [commonLength]
  | cons step rest ih =>
      cases second with
      | nil => simp [commonLength]
      | cons other others =>
          rw [commonLength]
          split
          · rename_i same
            rw [List.take_succ_cons, List.take_succ_cons, ih, same]
          · rfl

theorem length_le_common_length {first second other : List Component} (front : other <+: first)
    (also : other <+: second) : other.length ≤ commonLength first second := by
  induction other generalizing first second with
  | nil => exact Nat.zero_le _
  | cons step rest ih =>
      obtain ⟨behind, rfl⟩ := front
      obtain ⟨behindAlso, rfl⟩ := also
      have later := ih (List.prefix_append rest behind) (List.prefix_append rest behindAlso)
      rw [List.cons_append, List.cons_append, commonLength, if_pos rfl, List.length_cons]
      omega

theorem shared_front (first second : List Component) :
    IsSharedFront (first.take (commonLength first second)) first second where
  of_first := List.take_prefix _ _
  of_second := by
    rw [take_common_length]
    exact List.take_prefix _ _
  longest := by
    intro other front also
    rw [List.length_take_of_le (common_length_le first second).1]
    exact length_le_common_length front also

/-- The way from `start` to `target`. -/
def way (target start : List Component) : List Component :=
  List.replicate (start.length - commonLength target start) .parent ++
    target.drop (commonLength target start)

theorem take_steps_way {target start : List Component} {names : List String}
    (inward : target.drop (commonLength target start) = names.map .name) :
    takeSteps start (way target start) = target := by
  have within := (common_length_le target start).2
  have kept : start.length - (start.length - commonLength target start) =
      commonLength target start := by omega
  rw [way, take_steps_append, take_steps_out, kept, inward, take_steps_in, ← take_common_length,
    ← inward, List.take_append_drop]

theorem length_way_le {target start steps : List Component}
    (moves : ∀ step ∈ steps, step.isMove = true) (leads : takeSteps start steps = target) :
    (way target start).length ≤ steps.length := by
  obtain ⟨kept, front, also, length⟩ := exists_kept start moves
  rw [leads] at also length
  have shared := length_le_common_length also front
  obtain ⟨inTarget, inStart⟩ := common_length_le target start
  rw [way, List.length_append, List.length_replicate, List.length_drop]
  omega

theorem way_eq_nil {target start : List Component} {names : List String}
    (inward : target.drop (commonLength target start) = names.map .name) :
    way target start = [] ↔ target = start := by
  constructor
  · intro nowhere
    have leads := take_steps_way inward
    rw [nowhere] at leads
    exact leads.symm
  · intro same
    have all := common_length_append start []
    rw [List.append_nil] at all
    rw [way, same, all, Nat.sub_self, List.drop_length]
    rfl

/-! ## Ways written as paths -/

/-- A component that stands for a step out or in and can be written into a relative path. -/
inductive IsSpelled : Component → Prop where
  | parent : IsSpelled .parent
  | name {text : String} (valid : IsName text) : IsSpelled (.name text)

theorem IsSpelled.is_move {step : Component} (spelled : IsSpelled step) : step.isMove = true := by
  cases spelled <;> rfl

theorem IsSpelled.relative {step : Component} (spelled : IsSpelled step) :
    isAbsolute step.text = false := by
  cases spelled with
  | parent => decide
  | name valid => exact valid.relative

theorem IsSpelled.components_push (path : String) {step : Component} (spelled : IsSpelled step) :
    components (push path step.text) = components path ++ [step] := by
  cases spelled with
  | name valid => exact Path.components_push path valid
  | parent =>
      by_cases empty : path = ""
      · rw [empty]
        decide
      · have meaning : (pieces "..").filterMap innerComponent? = [.parent] := by decide
        rw [Component.text, components_push_relative empty (by decide), meaning]

theorem IsSpelled.is_absolute_push (path : String) {step : Component} (spelled : IsSpelled step) :
    isAbsolute (push path step.text) = isAbsolute path := by
  by_cases empty : path = ""
  · rw [empty, push_empty, spelled.relative]
    rfl
  · exact Path.is_absolute_push empty spelled.relative

theorem components_push_each {steps : List Component} (spelled : ∀ step ∈ steps, IsSpelled step)
    (path : String) :
    components (steps.foldl (fun path step => push path step.text) path) =
        components path ++ steps ∧
      isAbsolute (steps.foldl (fun path step => push path step.text) path) = isAbsolute path := by
  induction steps generalizing path with
  | nil => exact ⟨(List.append_nil _).symm, rfl⟩
  | cons step steps ih =>
      have here := spelled step List.mem_cons_self
      have later : ∀ other ∈ steps, IsSpelled other :=
        fun other member => spelled other (List.mem_cons_of_mem _ member)
      obtain ⟨meaning, start⟩ := ih later (push path step.text)
      rw [List.foldl_cons, meaning, start, here.components_push, here.is_absolute_push,
        List.append_assoc]
      exact ⟨rfl, rfl⟩

theorem components_of_components {steps : List Component}
    (spelled : ∀ step ∈ steps, IsSpelled step) :
    components (ofComponents steps) = steps ∧ isAbsolute (ofComponents steps) = false :=
  components_push_each spelled ""

namespace IsStraight

variable {path base : String}

theorem no_parent_piece (straight : IsStraight path) : ".." ∉ pieces path := by
  rw [← parent_mem_components]
  exact straight.no_parent

/-- Behind the root, if it starts there, a straight path is a list of names. -/
theorem components_eq (straight : IsStraight path) :
    components path = (if isAbsolute path then [.root] else []) ++ (Path.steps path).map .name := by
  have inner := inner_components_of_steps straight.no_parent_piece
  have current := straight.no_current
  unfold components at *
  simp only [inner] at *
  split
  · rfl
  · rename_i relative
    rw [if_neg relative] at current
    split
    · rename_i first
      rw [if_pos first] at current
      exact absurd List.mem_cons_self current
    · rfl

theorem is_name (straight : IsStraight path) {text : String} (step : text ∈ Path.steps path) :
    IsName text := by
  obtain ⟨piece, step⟩ := List.mem_filter.mp step
  obtain ⟨nonempty, notCurrent⟩ := is_step_iff.mp step
  have notParent : text ≠ ".." := by
    intro upwards
    rw [upwards] at piece
    exact straight.no_parent_piece piece
  exact { nonempty, not_current := notCurrent, not_parent := notParent, free := piece_free piece }

/-- From where two straight paths part, only names follow. -/
theorem inward (straight : IsStraight path) (alike : isAbsolute path = isAbsolute base)
    (straightBase : IsStraight base) :
    ∃ names : List String, (∀ text ∈ names, IsName text) ∧
      (components path).drop (commonLength (components path) (components base)) =
        names.map .name := by
  have within : ∀ count, ∀ text ∈ (Path.steps path).drop count, IsName text :=
    fun count text member => straight.is_name (List.mem_of_mem_drop member)
  rw [straight.components_eq, straightBase.components_eq, ← alike]
  cases isAbsolute path with
  | false => exact ⟨_, within _, List.map_drop.symm⟩
  | true => exact ⟨_, within _, List.map_drop.symm⟩

end IsStraight

theorem relative_eq (path base : String) :
    relative path base =
      if way (components path) (components base) = [] then "."
      else ofComponents (way (components path) (components base)) := by
  have unfolded : relative path base =
      if (way (components path) (components base)).isEmpty then "."
      else ofComponents (way (components path) (components base)) := rfl
  simp only [unfolded, List.isEmpty_iff]

section

variable {path base : String}

theorem spelled_way {names : List String} (valid : ∀ text ∈ names, IsName text)
    (inward : (components path).drop (commonLength (components path) (components base)) =
      names.map .name) :
    ∀ step ∈ way (components path) (components base), IsSpelled step := by
  intro step member
  rw [way, inward] at member
  rcases List.mem_append.mp member with out | into
  · rw [List.eq_of_mem_replicate out]
    exact .parent
  · obtain ⟨text, named, rfl⟩ := List.mem_map.mp into
    exact .name (valid text named)

theorem components_relative
    (spelled : ∀ step ∈ way (components path) (components base), IsSpelled step) :
    components (relative path base) =
      if way (components path) (components base) = [] then [.current]
      else way (components path) (components base) := by
  rw [relative_eq]
  split
  · decide
  · exact (components_of_components spelled).1

theorem is_absolute_relative
    (spelled : ∀ step ∈ way (components path) (components base), IsSpelled step) :
    isAbsolute (relative path base) = false := by
  rw [relative_eq]
  split
  · decide
  · exact (components_of_components spelled).2

theorem moves_relative
    (spelled : ∀ step ∈ way (components path) (components base), IsSpelled step) :
    (components (relative path base)).filter Component.isMove =
      way (components path) (components base) := by
  rw [components_relative spelled]
  split
  · rename_i nowhere
    rw [nowhere]
    rfl
  · exact List.filter_eq_self.mpr fun step member => (spelled step member).is_move

/-- The way from one straight path to another is a relative path that leads there. It leaves the
components of the start behind those that the two share and enters those of the other, of which
there can be no fewer, and it is `.` just where the two mean the same. -/
theorem relative_leads_from_base (alike : isAbsolute path = isAbsolute base)
    (straight : IsStraight path) (straightBase : IsStraight base) :
    isAbsolute (relative path base) = false ∧
      takeSteps (components base) (components (relative path base)) = components path ∧
      (∃ (shared : List Component) (outward : Nat) (names : List String),
        IsSharedFront shared (components path) (components base) ∧
          outward + shared.length = (components base).length ∧
          (components (relative path base)).filter Component.isMove =
            List.replicate outward .parent ++ names.map .name) ∧
      (∀ moves : List Component, (∀ move ∈ moves, move.isMove = true) →
        takeSteps (components base) moves = components path →
        ((components (relative path base)).filter Component.isMove).length ≤ moves.length) ∧
      (relative path base = "." ↔ components path = components base) := by
  obtain ⟨names, valid, inward⟩ := straight.inward alike straightBase
  have spelled := spelled_way valid inward
  have moves := moves_relative spelled
  refine ⟨is_absolute_relative spelled, ?_, ?_, ?_, ?_⟩
  · have leads := take_steps_way inward
    rw [components_relative spelled]
    split
    · rename_i nowhere
      rwa [nowhere] at leads
    · exact leads
  · obtain ⟨inPath, inBase⟩ := common_length_le (components path) (components base)
    refine ⟨_, (components base).length - commonLength (components path) (components base), names,
      shared_front (components path) (components base), ?_, ?_⟩
    · rw [List.length_take_of_le inPath]
      omega
    · rw [moves, way, inward]
  · intro others areMoves leads
    rw [moves]
    exact length_way_le areMoves leads
  · rw [← way_eq_nil inward]
    constructor
    · intro dot
      have current : components "." = [.current] := by decide
      rw [dot, current] at moves
      exact moves.symm
    · intro nowhere
      rw [relative_eq, if_pos nowhere]

end

theorem sample_way_leads :
    isAbsolute "/a/./b//x/" = isAbsolute "/a/c/d" ∧ IsStraight "/a/./b//x/" ∧ IsStraight "/a/c/d" ∧
      relative "/a/./b//x/" "/a/c/d" = "../../b/x" ∧
      takeSteps (components "/a/c/d") (components "../../b/x") = components "/a/./b//x/" ∧
      (relative "/a/./b//x/" "/a/c/d" = "." ↔ components "/a/./b//x/" = components "/a/c/d") := by
  have straight : IsStraight "/a/./b//x/" := ⟨by decide, by decide⟩
  have straightBase : IsStraight "/a/c/d" := ⟨by decide, by decide⟩
  have written : relative "/a/./b//x/" "/a/c/d" = "../../b/x" := by decide
  obtain ⟨-, leads, -, -, same⟩ := relative_leads_from_base (by decide) straight straightBase
  rw [written] at leads
  exact ⟨by decide, straight, straightBase, written, leads, same⟩

end ArchiveBrowser.Path

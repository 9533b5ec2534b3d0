import ArchiveBrowser.Path.Components
import ArchiveBrowser.Proofs.Path.Segments

/-!
# Going on from a path and back

Going on from a path keeps its pieces, save for an empty one at the end, which has no
meaning of its own. What a name was added to is therefore taken off again by `relative`.
-/

set_option autoImplicit false

namespace ArchiveBrowser.Path

theorem is_absolute_append {path : String} (nonempty : path ≠ "") (rest : String) :
    isAbsolute (path ++ rest) = isAbsolute path := by
  have letters : path.toList ≠ [] := by simpa using nonempty
  obtain ⟨first, later, split⟩ := List.exists_cons_of_ne_nil letters
  simp only [isAbsolute, String.toList_append, split, List.cons_append, List.head?_cons]

theorem ends_with_separator_iff {path : String} :
    endsWithSeparator path = true ↔ ∃ before, path = before ++ "/" := by
  rw [endsWithSeparator, beq_iff_eq, List.getLast?_eq_some_iff]
  constructor
  · intro ends
    obtain ⟨before, split⟩ := ends
    refine ⟨String.ofList before, ?_⟩
    rw [← String.toList_inj, String.toList_append, separator_text, String.toList_ofList, split]
  · intro ends
    obtain ⟨before, same⟩ := ends
    subst same
    exact ⟨before.toList, by rw [String.toList_append, separator_text]⟩

/-- A path that goes on has the pieces of both parts, without an empty piece between them. -/
theorem pieces_push {path next : String} (nonempty : path ≠ "")
    (relative : isAbsolute next = false) :
    ∃ kept, kept ≠ [] ∧ (pieces path = kept ∨ pieces path = kept ++ [""]) ∧
      pieces (push path next) = kept ++ pieces next := by
  have full : path.isEmpty = false := by simpa using nonempty
  cases ends : endsWithSeparator path with
  | true =>
      obtain ⟨before, same⟩ := ends_with_separator_iff.mp ends
      -- The last piece is empty, and what comes next is put in its place.
      refine ⟨pieces before, pieces_ne_nil before, Or.inr ?_, ?_⟩
      · have cut := pieces_append_separator before ""
        rw [String.append_empty] at cut
        rw [same, cut]
        rfl
      · rw [push, relative, full, ends]
        simp only [Bool.false_eq_true, if_false, Bool.false_or, if_true]
        rw [same, pieces_append_separator]
  | false =>
      refine ⟨pieces path, pieces_ne_nil path, Or.inl rfl, ?_⟩
      rw [push, relative, full, ends]
      simp only [Bool.false_eq_true, if_false, Bool.false_or]
      exact pieces_append_separator path next

theorem is_absolute_push {path next : String} (nonempty : path ≠ "")
    (relative : isAbsolute next = false) : isAbsolute (push path next) = isAbsolute path := by
  rw [push, relative]
  simp only [Bool.false_eq_true, if_false]
  split
  · exact is_absolute_append nonempty next
  · rw [String.append_assoc]
    exact is_absolute_append nonempty ("/" ++ next)

theorem push_ne_empty {path next : String} (nonempty : path ≠ "")
    (relative : isAbsolute next = false) : push path next ≠ "" := by
  rw [push, relative]
  simp only [Bool.false_eq_true, if_false]
  split <;> simp [nonempty]

theorem size_push {path next : String} (relative : isAbsolute next = false) :
    path.utf8ByteSize + next.utf8ByteSize ≤ (push path next).utf8ByteSize := by
  rw [push, relative]
  simp only [Bool.false_eq_true, if_false]
  split <;> simp only [String.utf8ByteSize_append] <;> omega

theorem not_mem_push {path next : String} {letter : Char} (different : letter ≠ separator)
    (outside : letter ∉ path.toList) (outsideNext : letter ∉ next.toList) :
    letter ∉ (push path next).toList := by
  rw [push]
  split
  · exact outsideNext
  · split <;> simp [String.toList_append, separator_text, different, outside, outsideNext]

/-- A piece of a path that stands for what a directory holds under it. -/
structure IsPlain (piece : String) : Prop where
  nonempty : piece ≠ ""
  not_current : piece ≠ "."
  not_parent : piece ≠ ".."

theorem IsPlain.inner {piece : String} (plain : IsPlain piece) :
    innerComponent? piece = some (.name piece) := by
  simp [innerComponent?, plain.nonempty, plain.not_current, plain.not_parent]

theorem relative_of_plain {path : String} (plain : ∀ piece ∈ pieces path, IsPlain piece) :
    isAbsolute path = false := by
  rw [Bool.eq_false_iff]
  intro absolute
  obtain ⟨rest, rfl⟩ := is_absolute_iff.mp absolute
  have empty : "" ∈ pieces ("/" ++ rest) := by
    rw [pieces_slash]
    exact List.mem_cons_self
  exact (plain "" empty).nonempty rfl

theorem inner_components_of_plain {parts : List String} (plain : ∀ piece ∈ parts, IsPlain piece) :
    parts.filterMap innerComponent? = parts.map Component.name := by
  induction parts with
  | nil => rfl
  | cons part parts ih =>
      rw [List.filterMap_cons_some (plain part (by simp)).inner, List.map_cons,
        ih fun other member => plain other (List.mem_cons_of_mem _ member)]

theorem components_of_plain {path : String} (plain : ∀ piece ∈ pieces path, IsPlain piece) :
    components path = (pieces path).map Component.name := by
  have notCurrent : (pieces path).head? ≠ some "." := by
    intro first
    exact (plain "." (List.mem_of_head? first)).not_current rfl
  simp only [components, relative_of_plain plain, inner_components_of_plain plain,
    Bool.false_eq_true, if_false, if_neg notCurrent]

private theorem mem_intercalate {letter : Char} (parts : List (List Char))
    (different : letter ≠ separator) :
    letter ∈ [separator].intercalate parts ↔ ∃ part ∈ parts, letter ∈ part := by
  induction parts with
  | nil => simp
  | cons part parts ih =>
      cases parts with
      | nil => simp
      | cons next later =>
          rw [List.intercalate_cons_cons]
          simp only [List.mem_append, List.mem_singleton, different, or_false, ih]
          simp

/-- Apart from the slashes a path has the letters of its pieces. -/
theorem not_mem_iff_pieces {path : String} {letter : Char} (different : letter ≠ separator) :
    letter ∉ path.toList ↔ ∀ piece ∈ pieces path, letter ∉ piece.toList := by
  have joined := congrArg String.toList (intercalate_pieces path)
  rw [String.toList_intercalate, separator_text] at joined
  rw [← joined, mem_intercalate _ different]
  simp

structure IsName (text : String) : Prop extends IsPlain text where
  free : separator ∉ text.toList

theorem IsName.relative {text : String} (name : IsName text) : isAbsolute text = false := by
  have letters : text.toList ≠ [] := by simpa using name.nonempty
  obtain ⟨first, later, split⟩ := List.exists_cons_of_ne_nil letters
  have free := name.free
  rw [split] at free
  have different : first ≠ separator := by
    intro same
    exact free (by simp [same])
  simp [isAbsolute, split, different]

/-- What a relative path means is added behind what it goes on from, except that a `.` at its
own start loses its meaning. -/
theorem components_push_relative {path next : String} (nonempty : path ≠ "")
    (relative : isAbsolute next = false) :
    components (push path next) = components path ++ (pieces next).filterMap innerComponent? := by
  obtain ⟨kept, keptSome, before, after⟩ := pieces_push nonempty relative
  have inner : (pieces path).filterMap innerComponent? = kept.filterMap innerComponent? := by
    rcases before with same | same
    · rw [same]
    · rw [same, List.filterMap_append]
      simp [innerComponent?]
  have innerAfter : (pieces (push path next)).filterMap innerComponent? =
      kept.filterMap innerComponent? ++ (pieces next).filterMap innerComponent? := by
    rw [after, List.filterMap_append]
  obtain ⟨first, later, split⟩ := List.exists_cons_of_ne_nil keptSome
  have head : (pieces path).head? = some first := by
    rcases before with same | same <;> simp [same, split]
  have headAfter : (pieces (push path next)).head? = some first := by
    simp [after, split]
  simp only [components, is_absolute_push nonempty relative, inner, innerAfter, head, headAfter]
  split
  · rfl
  · split <;> rfl

theorem components_name {text : String} (name : IsName text) : components text = [.name text] := by
  have plain : ∀ piece ∈ pieces text, IsPlain piece := by
    rw [pieces_of_free name.free]
    simpa using name.toIsPlain
  rw [components_of_plain plain, pieces_of_free name.free, List.map_singleton]

theorem push_empty (next : String) : push "" next = next := by
  simp [push]

theorem components_push (path : String) {text : String} (name : IsName text) :
    components (push path text) = components path ++ [.name text] := by
  by_cases empty : path = ""
  · have nothing : components "" = [] := by decide
    rw [empty, push_empty, nothing, components_name name, List.nil_append]
  · rw [components_push_relative empty name.relative, pieces_of_free name.free]
    simp [name.toIsPlain.inner]

theorem common_length_append (steps more : List Component) :
    commonLength (steps ++ more) steps = steps.length := by
  induction steps with
  | nil => simp [commonLength]
  | cons step steps ih => simp [commonLength, ih]

/-- From a directory to an entry of it there is only the name of the entry to go. -/
theorem relative_push (path : String) {text : String} (name : IsName text) :
    relative (push path text) path = text := by
  rw [Path.relative, components_push path name, common_length_append]
  simp only [Nat.sub_self, List.replicate_zero, List.drop_left, List.nil_append]
  have absolute := name.relative
  simp [ofComponents, push, Component.text, absolute]

def padded (path : String) : Nat → String
  | 0 => path
  | count + 1 => padded path count ++ "/"

theorem size_padded (path : String) (count : Nat) :
    (padded path count).utf8ByteSize = path.utf8ByteSize + count := by
  induction count with
  | zero => rfl
  | succ count ih =>
      rw [padded, String.utf8ByteSize_append, ih, Nat.add_assoc]
      rfl

theorem padded_ne_empty {path : String} (nonempty : path ≠ "") (count : Nat) :
    padded path count ≠ "" := by
  induction count with
  | zero => exact nonempty
  | succ count ih => simp [padded]

theorem is_absolute_padded {path : String} (nonempty : path ≠ "") (count : Nat) :
    isAbsolute (padded path count) = isAbsolute path := by
  induction count with
  | zero => rfl
  | succ count ih => rw [padded, is_absolute_append (padded_ne_empty nonempty count), ih]

theorem not_mem_padded {path : String} {letter : Char} (different : letter ≠ separator)
    (outside : letter ∉ path.toList) (count : Nat) : letter ∉ (padded path count).toList := by
  induction count with
  | zero => exact outside
  | succ count ih => simp [padded, separator_text, different, ih]

end ArchiveBrowser.Path

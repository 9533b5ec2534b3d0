import ArchiveBrowser.Path.Segments

/-!
# Archive paths and lists of segments

Cutting an archive path into segments loses nothing: `ofSegments` puts the path together
again. The lists that come out are those of slash-free texts, except the list of one
empty text, since the path that it would belong to is that of the root.
-/

set_option autoImplicit false

namespace ArchiveBrowser.Path

def ofSegments (segments : List String) : String :=
  "/" ++ "/".intercalate segments

/-- Some archive path is cut into these segments. -/
def AreSegments (segments : List String) : Prop :=
  segments ≠ [""] ∧ ∀ segment ∈ segments, separator ∉ segment.toList

theorem separator_text : "/".toList = [separator] := rfl

theorem pieces_ne_nil (path : String) : pieces path ≠ [] := by
  simp [pieces]

private theorem split_parts_free (text : List Char) :
    ∀ part ∈ text.splitOn separator, separator ∉ part := by
  induction text with
  | nil => simp
  | cons letter text ih =>
      rw [List.splitOn_cons_eq_if_modifyHead]
      by_cases same : letter = separator
      · simpa [same] using ih
      · obtain ⟨part, parts, split⟩ := List.exists_cons_of_ne_nil (List.splitOn_ne_nil separator text)
        rw [split] at ih ⊢
        have head := ih part (by simp)
        have different : separator ≠ letter := Ne.symm same
        simp only [beq_iff_eq, same, if_false, List.modifyHead_cons, List.mem_cons,
          forall_eq_or_imp, not_or]
        exact ⟨⟨different, head⟩, fun other member => ih other (List.mem_cons_of_mem _ member)⟩

theorem piece_free {path piece : String} (member : piece ∈ pieces path) :
    separator ∉ piece.toList := by
  obtain ⟨part, inside, rfl⟩ := List.mem_map.mp member
  rw [String.toList_ofList]
  exact split_parts_free path.toList part inside

theorem intercalate_pieces (path : String) : "/".intercalate (pieces path) = path := by
  rw [← String.toList_inj, String.toList_intercalate, separator_text, pieces, List.map_map]
  have texts : String.toList ∘ String.ofList = id := by
    funext letters
    exact String.toList_ofList
  rw [texts, List.map_id, List.intercalate_splitOn]

theorem pieces_intercalate {parts : List String} (nonempty : parts ≠ [])
    (free : ∀ part ∈ parts, separator ∉ part.toList) : pieces ("/".intercalate parts) = parts := by
  have freeLetters : ∀ letters ∈ parts.map String.toList, separator ∉ letters := by
    simpa using free
  rw [pieces, String.toList_intercalate, separator_text,
    List.splitOn_intercalate separator freeLetters (by simpa using nonempty), List.map_map]
  have texts : String.ofList ∘ String.toList = id := by
    funext text
    exact String.ofList_toList
  rw [texts, List.map_id]

theorem pieces_of_free {text : String} (free : separator ∉ text.toList) : pieces text = [text] := by
  have cut : pieces ("/".intercalate [text]) = [text] :=
    pieces_intercalate (by simp) (by simpa using free)
  rwa [String.intercalate_singleton] at cut

theorem pieces_append_separator (first second : String) :
    pieces (first ++ "/" ++ second) = pieces first ++ pieces second := by
  simp only [pieces, String.toList_append, separator_text, List.append_assoc,
    List.singleton_append, List.splitOn_append_cons_self, List.map_append]

theorem pieces_slash (rest : String) : pieces ("/" ++ rest) = "" :: pieces rest := by
  have cut := pieces_append_separator "" rest
  rw [String.empty_append] at cut
  rw [cut]
  rfl

theorem after_root_eq_some {path rest : String} :
    afterRoot? path = some rest ↔ path = "/" ++ rest := by
  constructor
  · intro found
    unfold afterRoot? at found
    split at found
    · rename_i letters same
      obtain rfl := Option.some.inj found
      rw [← String.toList_inj, same, String.toList_append, separator_text, String.toList_ofList]
      rfl
    · cases found
  · intro same
    subst same
    have letters : ("/" ++ rest).toList = '/' :: rest.toList := by
      rw [String.toList_append]
      rfl
    simp only [afterRoot?, letters, String.ofList_toList]

theorem after_root_is_some (path : String) : (afterRoot? path).isSome = isAbsolute path := by
  unfold afterRoot? isAbsolute separator
  cases path.toList with
  | nil => rfl
  | cons letter rest =>
      by_cases same : letter = '/' <;> simp [same]

theorem is_absolute_iff {path : String} :
    isAbsolute path = true ↔ ∃ rest, path = "/" ++ rest := by
  rw [← after_root_is_some, Option.isSome_iff_exists]
  exact exists_congr fun rest => after_root_eq_some

theorem segments_is_some (path : String) : (segments? path).isSome = isAbsolute path := by
  rw [segments?, Option.isSome_map, after_root_is_some]

theorem absolute_of_segments {path : String} {segments : List String}
    (cut : segments? path = some segments) : isAbsolute path = true := by
  rw [← segments_is_some, cut]
  rfl

theorem segments_eq_none {path : String} : segments? path = none ↔ isAbsolute path = false := by
  rw [← segments_is_some]
  simp

theorem segments_of_absolute {path : String} (absolute : isAbsolute path = true) :
    ∃ segments, segments? path = some segments := by
  rw [← segments_is_some] at absolute
  exact Option.isSome_iff_exists.mp absolute

theorem of_segments_segments {path : String} {segments : List String}
    (cut : segments? path = some segments) : ofSegments segments = path := by
  obtain ⟨rest, found, same⟩ := Option.map_eq_some_iff.mp cut
  rw [after_root_eq_some.mp found]
  subst same
  unfold ofSegments
  by_cases empty : rest.isEmpty
  · rw [if_pos empty, String.isEmpty_iff.mp empty, String.intercalate_nil]
  · rw [if_neg empty, intercalate_pieces]

theorem are_segments {path : String} {segments : List String}
    (cut : segments? path = some segments) : AreSegments segments := by
  obtain ⟨rest, found, same⟩ := Option.map_eq_some_iff.mp cut
  subst same
  by_cases empty : rest.isEmpty
  · rw [if_pos empty]
    exact ⟨by simp, by simp⟩
  · rw [if_neg empty]
    constructor
    · intro lone
      have joined := intercalate_pieces rest
      rw [lone, String.intercalate_singleton] at joined
      exact empty (String.isEmpty_iff.mpr joined.symm)
    · intro piece member
      exact piece_free member

theorem segments_of_segments {segments : List String} (valid : AreSegments segments) :
    segments? (ofSegments segments) = some segments := by
  rw [segments?, after_root_eq_some.mpr (rfl : ofSegments segments = _), Option.map_some]
  cases segments with
  | nil => rfl
  | cons first rest =>
      have joined : pieces ("/".intercalate (first :: rest)) = first :: rest :=
        pieces_intercalate (by simp) valid.2
      have nonempty : ("/".intercalate (first :: rest)).isEmpty = false := by
        rw [Bool.eq_false_iff]
        intro empty
        rw [String.isEmpty_iff.mp empty] at joined
        exact valid.1 joined.symm
      rw [nonempty, joined]
      rfl

theorem segments_injective {path other : String} {segments : List String}
    (first : segments? path = some segments) (second : segments? other = some segments) :
    path = other := by
  rw [← of_segments_segments first, of_segments_segments second]

theorem of_segments_injective {segments others : List String} (valid : AreSegments segments)
    (otherValid : AreSegments others) (same : ofSegments segments = ofSegments others) :
    segments = others := by
  have cut := segments_of_segments valid
  rw [same, segments_of_segments otherValid] at cut
  exact (Option.some.inj cut).symm

theorem segments_root : segments? "/" = some [] := rfl

theorem segments_eq_nil {path : String} : segments? path = some [] ↔ path = "/" := by
  constructor
  · intro cut
    exact segments_injective cut segments_root
  · intro same
    subst same
    exact segments_root

end ArchiveBrowser.Path

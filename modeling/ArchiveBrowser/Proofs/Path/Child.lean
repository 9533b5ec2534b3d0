import ArchiveBrowser.Path.Parts
import ArchiveBrowser.Proofs.Path.Components
import Mathlib.Data.List.Basic

/-!
# Where the path of a child leads

A path that goes on with a slash and a leaf has one segment more. The path of a child is
put together so, except that a slash at the end of the directory counts as the one to go on
with, whereas among the segments of the directory it stands for an empty one. What
`segments_child` says of such a directory is that its last segment is replaced.
-/

set_option autoImplicit false

namespace ArchiveBrowser.Path

/-- What precedes the last slash of a path, which has `above` before its last segment. -/
def stem (above : List String) : String :=
  if above = [] then "" else ofSegments above

theorem of_segments_snoc (above : List String) (last : String) :
    ofSegments (above ++ [last]) = stem above ++ "/" ++ last := by
  by_cases empty : above = []
  · rw [stem, if_pos empty, empty, List.nil_append, ofSegments, String.intercalate_singleton,
      String.empty_append]
  · rw [stem, if_neg empty, ofSegments, ofSegments,
      String.intercalate_append_of_ne_nil empty (by simp), String.intercalate_singleton]
    simp only [String.append_assoc]

theorem of_segments_ne_empty (segments : List String) : ofSegments segments ≠ "" := by
  simp [ofSegments]

/-- Only the empty segment below the root has the root itself for its text. -/
theorem stem_eq_root {above : List String}
    (free : ∀ segment ∈ above, separator ∉ segment.toList) : stem above = "/" ↔ above = [""] := by
  constructor
  · intro root
    by_cases lone : above = [""]
    · exact lone
    · have cut := segments_of_segments ⟨lone, free⟩
      by_cases empty : above = []
      · rw [stem, if_pos empty] at root
        exact absurd root (by decide)
      · rw [stem, if_neg empty] at root
        rw [root, segments_root] at cut
        exact absurd (Option.some.inj cut).symm empty
  · intro lone
    rw [lone]
    decide

theorem segments_stem {above : List String}
    (free : ∀ segment ∈ above, separator ∉ segment.toList) (inside : stem above ≠ "/") :
    segments? (if stem above = "" then "/" else stem above) = some above := by
  have notLone : above ≠ [""] := fun lone => inside ((stem_eq_root free).mpr lone)
  by_cases empty : above = []
  · rw [empty]
    decide
  · have text : stem above = ofSegments above := by rw [stem, if_neg empty]
    rw [text, if_neg (of_segments_ne_empty above)]
    exact segments_of_segments ⟨notLone, free⟩

/-- There is one way to cut a path at its last slash. -/
theorem cut_last_unique {before other leaf text : String}
    (same : before ++ "/" ++ leaf = other ++ "/" ++ text) (free : separator ∉ leaf.toList)
    (textFree : separator ∉ text.toList) : before = other ∧ leaf = text := by
  have cut := pieces_append_separator before leaf
  rw [same, pieces_append_separator, pieces_of_free free, pieces_of_free textFree] at cut
  obtain ⟨front, last⟩ := List.append_inj' cut rfl
  refine ⟨?_, by simpa using last.symm⟩
  rw [← intercalate_pieces before, ← intercalate_pieces other, front]

theorem segments_of_cut_last {path before leaf : String} {whole : List String}
    (cut : segments? path = some whole) (below : path ≠ "/")
    (joined : path = before ++ "/" ++ leaf) (free : separator ∉ leaf.toList) :
    ∃ above, whole = above ++ [leaf] ∧ before = stem above ∧
      ∀ segment ∈ above, separator ∉ segment.toList := by
  obtain ⟨-, wholeFree⟩ := are_segments cut
  rcases List.eq_nil_or_concat' whole with rfl | ⟨above, last, rfl⟩
  · exact absurd (segments_eq_nil.mp cut) below
  · have text := of_segments_segments cut
    rw [of_segments_snoc, joined] at text
    obtain ⟨front, same⟩ := cut_last_unique text (wholeFree last (by simp)) free
    refine ⟨above, by rw [same], front.symm, ?_⟩
    intro segment member
    exact wholeFree segment (List.mem_append_left _ member)

/-- A path ends in a slash if what is behind its last slash is empty. -/
theorem ends_with_separator_leaf (before : String) {leaf : String}
    (free : separator ∉ leaf.toList) :
    endsWithSeparator (before ++ "/" ++ leaf) = true ↔ leaf = "" := by
  rw [endsWithSeparator, beq_iff_eq, String.toList_append, String.toList_append, separator_text]
  constructor
  · intro ends
    by_cases empty : leaf = ""
    · exact empty
    · have letters : leaf.toList ≠ [] := by simpa using empty
      rw [List.getLast?_append, List.getLast?_eq_some_getLast letters, Option.some_or] at ends
      have last := List.getLast_mem letters
      rw [Option.some.inj ends] at last
      exact absurd last free
  · intro empty
    simp [empty]

/-- The segments to which the path of a child leads from those of the directory. -/
def childSegments (place : List String) (name : String) : List String :=
  if place = [] then (if name = "" then [] else [name])
  else if place.getLast? = some "" then place.dropLast ++ [name]
  else place ++ [name]

theorem are_segments_snoc {place : List String} (nonempty : place ≠ [])
    (free : ∀ segment ∈ place, separator ∉ segment.toList) {name : String}
    (nameFree : separator ∉ name.toList) : AreSegments (place ++ [name]) := by
  constructor
  · intro lone
    have lengths := congrArg List.length lone
    have positive := List.length_pos_iff.mpr nonempty
    simp only [List.length_append, List.length_singleton] at lengths
    omega
  · intro segment member
    rcases List.mem_append.mp member with inside | isName
    · exact free segment inside
    · rw [List.mem_singleton.mp isName]
      exact nameFree

theorem child_segments_snoc (above : List String) (last name : String) :
    childSegments (above ++ [last]) name =
      if last = "" then above ++ [name] else above ++ [last] ++ [name] := by
  simp [childSegments]

theorem segments_child {directory name : String} {place : List String}
    (cut : segments? directory = some place) (free : separator ∉ name.toList) :
    segments? (child directory name) = some (childSegments place name) := by
  obtain ⟨notLone, placeFree⟩ := are_segments cut
  rcases List.eq_nil_or_concat' place with rfl | ⟨above, last, rfl⟩
  · obtain rfl := segments_eq_nil.mp cut
    have joined : child "/" name = ofSegments [name] := (of_segments_snoc [] name).symm
    rw [joined, childSegments, if_pos rfl]
    by_cases empty : name = ""
    · rw [if_pos empty, empty]
      rfl
    · rw [if_neg empty]
      exact segments_of_segments ⟨by simpa using empty, by simpa using free⟩
  · have lastFree := placeFree last (by simp)
    have ends := ends_with_separator_leaf (stem above) lastFree
    rw [child_segments_snoc, ← of_segments_segments cut, of_segments_snoc, child]
    by_cases empty : last = ""
    · -- The slash at the end is taken for the one before the name.
      have nonempty : above ≠ [] := by
        intro none
        exact notLone (by rw [none, empty, List.nil_append])
      have aboveFree : ∀ segment ∈ above, separator ∉ segment.toList := by
        intro segment member
        exact placeFree segment (List.mem_append_left _ member)
      rw [if_pos (ends.mpr empty), if_pos empty, empty, String.append_empty, ← of_segments_snoc]
      exact segments_of_segments (are_segments_snoc nonempty aboveFree free)
    · rw [if_neg (mt ends.mp empty), if_neg empty, ← of_segments_snoc]
      have joined : ofSegments (above ++ [last]) = stem (above ++ [last]) := by
        rw [stem, if_neg (by simp)]
      rw [joined, ← of_segments_snoc]
      exact segments_of_segments (are_segments_snoc (by simp) placeFree free)

/-- The name is put behind all segments of the directory: the path of the directory does not
end in a slash, or it is that of the root, and the name is not empty. -/
def Nests (directory name : String) : Prop :=
  (directory = "/" ∧ name ≠ "") ∨ endsWithSeparator directory = false

instance (directory name : String) : Decidable (Nests directory name) :=
  inferInstanceAs (Decidable ((directory = "/" ∧ name ≠ "") ∨ endsWithSeparator directory = false))

theorem child_segments_eq_iff {directory : String} {place : List String}
    (cut : segments? directory = some place) {name : String} :
    childSegments place name = place ++ [name] ↔ Nests directory name := by
  obtain ⟨-, placeFree⟩ := are_segments cut
  rcases List.eq_nil_or_concat' place with rfl | ⟨above, last, rfl⟩
  · obtain rfl := segments_eq_nil.mp cut
    have ends : endsWithSeparator "/" = true := by decide
    by_cases empty : name = "" <;> simp [childSegments, Nests, ends, empty]
  · have below : directory ≠ "/" := by
      intro root
      rw [root, segments_root] at cut
      simp at cut
    have ends := ends_with_separator_leaf (stem above) (placeFree last (by simp))
    rw [← of_segments_snoc, of_segments_segments cut] at ends
    rw [child_segments_snoc, Nests, Bool.eq_false_iff, Ne, Ne, ends]
    by_cases empty : last = "" <;> simp [empty, below]

theorem not_nests {directory : String} {place : List String}
    (cut : segments? directory = some place) {name : String} (apart : ¬Nests directory name) :
    place = [] ∧ name = "" ∨ ∃ above, above ≠ [] ∧ place = above ++ [""] := by
  rw [← child_segments_eq_iff cut] at apart
  rcases List.eq_nil_or_concat' place with rfl | ⟨above, last, rfl⟩
  · by_cases empty : name = ""
    · exact .inl ⟨rfl, empty⟩
    · exact absurd (by simp [childSegments, empty]) apart
  · by_cases empty : last = ""
    · subst empty
      refine .inr ⟨above, ?_, rfl⟩
      intro none
      exact (are_segments cut).1 (by rw [none, List.nil_append])
    · exact absurd (by rw [child_segments_snoc, if_neg empty]) apart

theorem child_eq_self_iff {directory name : String} :
    child directory name = directory ↔ endsWithSeparator directory = true ∧ name = "" := by
  rw [child]
  constructor
  · intro same
    have lengths := congrArg String.length same
    split at lengths
    · rename_i ends
      rw [String.length_append] at lengths
      exact ⟨ends, String.length_eq_zero_iff.mp (by omega)⟩
    · have slash : "/".length = 1 := rfl
      simp only [String.length_append] at lengths
      omega
  · rintro ⟨ends, rfl⟩
    rw [if_pos ends, String.append_empty]

/-- The path of a child is longer, unless it is the same. -/
theorem length_lt_child {directory name : String} (other : child directory name ≠ directory) :
    directory.length < (child directory name).length := by
  by_cases ends : endsWithSeparator directory = true
  · have nonempty : name ≠ "" := fun empty => other (child_eq_self_iff.mpr ⟨ends, empty⟩)
    have positive : name.length ≠ 0 := mt String.length_eq_zero_iff.mp nonempty
    rw [child, if_pos ends, String.length_append]
    omega
  · have slash : "/".length = 1 := rfl
    rw [child, if_neg ends]
    simp only [String.length_append]
    omega

theorem is_absolute_child_eq {directory : String} (nonempty : directory ≠ "") (name : String) :
    isAbsolute (child directory name) = isAbsolute directory := by
  rw [child, String.append_assoc]
  split
  · exact is_absolute_append nonempty _
  · exact is_absolute_append nonempty _

theorem is_absolute_child {directory : String} (absolute : isAbsolute directory = true)
    (name : String) : isAbsolute (child directory name) = true := by
  have nonempty : directory ≠ "" := by
    intro empty
    rw [empty] at absolute
    cases absolute
  rw [is_absolute_child_eq nonempty, absolute]

theorem ends_with_separator_append (front : String) {text : String} (nonempty : text ≠ "") :
    endsWithSeparator (front ++ text) = endsWithSeparator text := by
  have letters : text.toList ≠ [] := by simpa using nonempty
  rw [endsWithSeparator, String.toList_append, List.getLast?_append_of_ne_nil _ letters,
    endsWithSeparator]

theorem ends_with_separator_of_free {text : String} (free : separator ∉ text.toList) :
    endsWithSeparator text = false := by
  rw [endsWithSeparator, beq_eq_false_iff_ne]
  exact fun last => free (List.mem_of_getLast? last)

/-- What is in front of a path stays in front of the path of a child. -/
theorem child_append (front : String) {path : String} (nonempty : path ≠ "") (name : String) :
    child (front ++ path) name = front ++ child path name := by
  rw [child, child, ends_with_separator_append front nonempty]
  split <;> simp only [String.append_assoc]

theorem child_eq_append (directory name : String) :
    child directory name = child directory "" ++ name := by
  unfold child
  split <;> rw [String.append_empty]

/-- Behind a name in which there is no slash, going on takes one. -/
theorem child_of_child {name : String} (nonempty : name ≠ "") (free : separator ∉ name.toList)
    (directory next : String) :
    child (child directory name) next = child directory name ++ "/" ++ next := by
  have ends : endsWithSeparator (child directory name) = false := by
    rw [child_eq_append, ends_with_separator_append _ nonempty, ends_with_separator_of_free free]
  rw [child, ends, if_neg Bool.false_ne_true]

theorem child_of_ends {directory : String} (ends : endsWithSeparator directory = true)
    (name : String) : child directory name = directory ++ name :=
  if_pos ends

/-- Going on from a path with a name leads to the child of that name. -/
theorem push_eq_child {path name : String} (nonempty : path ≠ "")
    (relative : isAbsolute name = false) : push path name = child path name := by
  simp [push, child, relative, nonempty]

theorem push_eq_append (root : String) :
    ∃ front, ∀ next, isAbsolute next = false → push root next = front ++ next := by
  by_cases adjoins : (root.isEmpty || endsWithSeparator root) = true
  · refine ⟨root, fun next relative => ?_⟩
    rw [push, relative, if_neg Bool.false_ne_true, if_pos adjoins]
  · refine ⟨root ++ "/", fun next relative => ?_⟩
    rw [push, relative, if_neg Bool.false_ne_true, if_neg adjoins]

/-- The child of a path below a root is the child of what the path leads to from there. -/
theorem push_child (root : String) {path name : String} (nonempty : path ≠ "")
    (relative : isAbsolute path = false) (nameRelative : isAbsolute name = false) :
    push root (child path name) = push (push root path) name := by
  obtain ⟨front, goesOn⟩ := push_eq_append root
  have childRelative : isAbsolute (child path name) = false := by
    rw [is_absolute_child_eq nonempty, relative]
  have below : front ++ path ≠ "" := by simp [nonempty]
  rw [goesOn _ childRelative, goesOn _ relative, push_eq_child below nameRelative,
    child_append front nonempty]

theorem segments_of_rest {rest : String} (nonempty : rest ≠ "") :
    segments? ("/" ++ rest) = some (pieces rest) := by
  rw [segments?, after_root_eq_some.mpr rfl, Option.map_some, if_neg (by simpa using nonempty)]

theorem pieces_of_segments {path : String} {place : List String}
    (cut : segments? path = some place) (below : place ≠ []) : pieces path = "" :: place := by
  obtain ⟨rest, found, same⟩ := Option.map_eq_some_iff.mp cut
  rw [after_root_eq_some.mp found]
  by_cases empty : rest.isEmpty = true
  · rw [if_pos empty] at same
    exact absurd same.symm below
  · rw [if_neg empty] at same
    rw [pieces_slash, same]

theorem pieces_double (before behind : String) :
    pieces (before ++ "//" ++ behind) = pieces before ++ [""] ++ pieces behind := by
  have apart : before ++ "//" ++ behind = before ++ "/" ++ "" ++ "/" ++ behind := by
    simp only [String.append_assoc, String.empty_append]
    rfl
  rw [apart, pieces_append_separator, pieces_append_separator]
  rfl

/-- Of two slashes in a row, the first ends the path of a nameless directory. -/
theorem segments_of_double (before behind : String) :
    segments? ("/" ++ (before ++ "//" ++ behind)) =
        some (pieces before ++ [""] ++ pieces behind) ∧
      segments? ("/" ++ (before ++ "/")) = some (pieces before ++ [""]) := by
  constructor
  · rw [segments_of_rest (by simp), pieces_double]
  · have cut := pieces_append_separator before ""
    rw [String.append_empty] at cut
    rw [segments_of_rest (by simp), cut]
    rfl

/-- A slash in front of all segments makes the first of them nameless. -/
theorem segments_of_absolute_rest (rest : String) :
    segments? ("/" ++ ("/" ++ rest)) = some ("" :: pieces rest) := by
  rw [segments_of_rest (by simp), pieces_slash]

end ArchiveBrowser.Path

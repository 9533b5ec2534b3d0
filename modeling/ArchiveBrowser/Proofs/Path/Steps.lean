import ArchiveBrowser.Proofs.Path.Components

/-!
# The steps of a path

To a file system an empty piece of a path and the piece `.` stand for the place where they
are met. The other pieces are its steps. Slashes in front of a path, which an archive takes off
before the path is put behind another, are no steps either.
-/

set_option autoImplicit false

namespace ArchiveBrowser.Path

def isStep (piece : String) : Bool :=
  piece != "" && piece != "."

def steps (path : String) : List String :=
  (pieces path).filter isStep

/-- What is left of a path without the slashes in front of it. -/
def trimmed (path : String) : String :=
  String.ofList (path.toList.dropWhile (· == separator))

theorem is_step_iff {piece : String} : isStep piece = true ↔ piece ≠ "" ∧ piece ≠ "." := by
  simp [isStep]

theorem steps_slash (rest : String) : steps ("/" ++ rest) = steps rest := by
  unfold steps
  rw [pieces_slash]
  rfl

theorem parent_mem_filter {parts : List String} :
    ".." ∈ parts.filter isStep ↔ ".." ∈ parts := by
  rw [List.mem_filter]
  exact and_iff_left (by decide)

theorem parent_mem_steps {path : String} : ".." ∈ steps path ↔ ".." ∈ pieces path :=
  parent_mem_filter

theorem parent_mem_slash {rest : String} : ".." ∈ pieces ("/" ++ rest) ↔ ".." ∈ pieces rest := by
  rw [← parent_mem_steps, steps_slash, parent_mem_steps]

theorem relative_trimmed (path : String) : isAbsolute (trimmed path) = false := by
  unfold isAbsolute trimmed
  rw [String.toList_ofList]
  cases left : path.toList.dropWhile (· == separator) with
  | nil => rfl
  | cons first rest =>
      have kept := List.head?_dropWhile_not (· == separator) path.toList
      rw [left] at kept
      simpa using kept

/-- What is taken off a path when it is trimmed is made of slashes. -/
theorem eq_append_trimmed (path : String) :
    ∃ front : String, (∀ letter ∈ front.toList, letter = separator) ∧
      path = front ++ trimmed path := by
  refine ⟨String.ofList (path.toList.takeWhile (· == separator)), ?_, ?_⟩
  · intro letter member
    rw [String.toList_ofList] at member
    simpa using List.all_eq_true.mp List.all_takeWhile letter member
  · rw [← String.toList_inj, String.toList_append, trimmed, String.toList_ofList,
      String.toList_ofList, List.takeWhile_append_dropWhile]

theorem trimmed_append {front rest : String} (slashes : ∀ letter ∈ front.toList, letter = separator)
    (relative : isAbsolute rest = false) : trimmed (front ++ rest) = rest := by
  have all : ∀ letter ∈ front.toList, (letter == separator) = true := by simpa using slashes
  have none : rest.toList.dropWhile (· == separator) = rest.toList := by
    unfold isAbsolute at relative
    cases letters : rest.toList with
    | nil => rfl
    | cons first later =>
        rw [letters] at relative
        exact List.dropWhile_cons_of_neg (by simpa using relative)
  rw [trimmed, String.toList_append, List.dropWhile_append_of_pos all, none, String.ofList_toList]

theorem trimmed_of_relative {rest : String} (relative : isAbsolute rest = false) :
    trimmed rest = rest := by
  have bare := trimmed_append (by simp : ∀ letter ∈ "".toList, letter = separator) relative
  rwa [String.empty_append] at bare

/-- Trimming takes away empty pieces only. -/
theorem filter_pieces_trimmed {keep : String → Bool} (drops : keep "" = false) (path : String) :
    (pieces (trimmed path)).filter keep = (pieces path).filter keep := by
  unfold trimmed
  rw [← String.ofList_toList (s := path)]
  generalize path.toList = letters
  rw [String.toList_ofList]
  induction letters with
  | nil => rfl
  | cons first rest ih =>
      by_cases slash : first = separator
      · subst slash
        have split : String.ofList (separator :: rest) = "/" ++ String.ofList rest := by
          rw [← String.toList_inj, String.toList_append]
          simp [separator_text]
        rw [List.dropWhile_cons_of_pos (by simp), ih, split, pieces_slash,
          List.filter_cons_of_neg (by simp [drops])]
      · rw [List.dropWhile_cons_of_neg (by simpa using slash)]

theorem steps_trimmed (path : String) : steps (trimmed path) = steps path :=
  filter_pieces_trimmed rfl path

/-- The way upwards is a component of a path just where it is one of its pieces. -/
theorem parent_mem_components {path : String} :
    Component.parent ∈ components path ↔ ".." ∈ pieces path := by
  have inner : Component.parent ∈ (pieces path).filterMap innerComponent? ↔
      ".." ∈ pieces path := by
    rw [List.mem_filterMap]
    constructor
    · intro found
      obtain ⟨piece, member, means⟩ := found
      unfold innerComponent? at means
      split at means
      · cases means
      · split at means
        · rename_i upwards
          rwa [upwards] at member
        · cases means
    · intro member
      exact ⟨"..", member, by decide⟩
  unfold components
  dsimp only
  split
  · simpa using inner
  · split
    · simpa using inner
    · exact inner

variable {path : String} {place : List String}

/-- Empty pieces apart, a path inside an archive has its segments for pieces. -/
theorem filter_pieces_of_segments {keep : String → Bool} (drops : keep "" = false)
    (cut : segments? path = some place) : (pieces path).filter keep = place.filter keep := by
  obtain ⟨rest, found, same⟩ := Option.map_eq_some_iff.mp cut
  rw [after_root_eq_some.mp found, pieces_slash, List.filter_cons_of_neg (by simp [drops]), ← same]
  split
  · rename_i empty
    have nothing : pieces "" = [""] := by decide
    rw [String.isEmpty_iff.mp empty, nothing, List.filter_cons_of_neg (by simp [drops])]
  · rfl

theorem parent_mem_segments (cut : segments? path = some place) :
    ".." ∈ pieces path ↔ ".." ∈ place := by
  rw [← parent_mem_steps, steps, filter_pieces_of_segments rfl cut, parent_mem_filter]

/-- Without a way upwards, the meaning of pieces is that of their steps. -/
theorem inner_components_of_steps {parts : List String} (inside : ".." ∉ parts) :
    parts.filterMap innerComponent? = (parts.filter isStep).map .name := by
  induction parts with
  | nil => rfl
  | cons part parts ih =>
      have notParent : part ≠ ".." := fun same => inside (by simp [same])
      have rest := ih fun upwards => inside (List.mem_cons_of_mem _ upwards)
      by_cases step : isStep part = true
      · obtain ⟨nonempty, notCurrent⟩ := is_step_iff.mp step
        have plain : IsPlain part := ⟨nonempty, notCurrent, notParent⟩
        rw [List.filterMap_cons_some plain.inner, List.filter_cons_of_pos step, List.map_cons, rest]
      · have meaningless : innerComponent? part = none := by
          rw [is_step_iff] at step
          unfold innerComponent?
          by_cases empty : part = "" <;> simp_all
        rw [List.filterMap_cons_none meaningless, List.filter_cons_of_neg step, rest]

/-- A relative path, unless it is empty, starts with a piece that is not. -/
theorem head_pieces_of_relative (relative : isAbsolute path = false) (nonempty : path ≠ "") :
    (pieces path).head? = ((pieces path).filter (· ≠ "")).head? := by
  obtain ⟨first, later, split⟩ := List.exists_cons_of_ne_nil (pieces_ne_nil path)
  have joined := intercalate_pieces path
  rw [split] at joined ⊢
  have written : first ≠ "" := by
    intro empty
    subst empty
    cases later with
    | nil => exact nonempty (by rw [← joined, String.intercalate_singleton])
    | cons second rest =>
        rw [String.intercalate_cons_of_ne_nil (by simp), String.empty_append] at joined
        rw [is_absolute_iff.mpr ⟨_, joined.symm⟩] at relative
        cases relative
  rw [List.filter_cons_of_pos (by simpa using written)]
  rfl

/-- Only a `.` that is the first to be written in a relative path has a meaning. -/
theorem components_of_relative (relative : isAbsolute path = false) (nonempty : path ≠ "") :
    components path =
      (if ((pieces path).filter (· ≠ "")).head? = some "." then [.current] else []) ++
        (pieces path).filterMap innerComponent? := by
  rw [← head_pieces_of_relative relative nonempty]
  simp only [components, relative, Bool.false_eq_true, if_false]
  split <;> rfl

end ArchiveBrowser.Path

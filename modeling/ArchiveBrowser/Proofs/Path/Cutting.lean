import ArchiveBrowser.Path.Parts
import ArchiveBrowser.Proofs.Path.Components
import Mathlib.Data.List.TakeWhile

/-!
# Cutting a path undoes joining

A path is cut in front of its last slash, of either kind, and behind it. `parts_of_cut` says that
a text put together with a slash and something free of slashes is cut nowhere else, so that the
parts of a joined path are what was joined. A slash is a single byte, and where it is found is a
boundary between characters: both cuts may be made at a count of bytes.
-/

set_option autoImplicit false

namespace ArchiveBrowser.Path

theorem is_slash_iff {letter : Char} : isSlash letter = true ↔ letter = '/' ∨ letter = '\\' := by
  simp [isSlash]

theorem free_of_slashes_iff {letters : List Char} :
    (∀ letter ∈ letters, isSlash letter = false) ↔ '/' ∉ letters ∧ '\\' ∉ letters := by
  constructor
  · intro free
    constructor
    · intro forward
      exact absurd (free '/' forward) (by decide)
    · intro backward
      exact absurd (free '\\' backward) (by decide)
  · rintro ⟨forward, backward⟩ letter member
    rw [Bool.eq_false_iff]
    intro slash
    rcases is_slash_iff.mp slash with rfl | rfl
    · exact forward member
    · exact backward member

section cut

variable {name : String} {slash : Char}

/-- What is put together with a slash and a name free of slashes is cut at that slash. -/
theorem parts_of_cut (before : String) (is : isSlash slash = true)
    (free : ∀ letter ∈ name.toList, isSlash letter = false) :
    parent (before ++ String.singleton slash ++ name) = before ∧
      fileName (before ++ String.singleton slash ++ name) = name := by
  have letters : (before ++ String.singleton slash ++ name).toList.reverse =
      name.toList.reverse ++ slash :: before.toList.reverse := by
    simp
  have inName : ∀ letter ∈ name.toList.reverse, (!isSlash letter) = true := by
    intro letter member
    rw [free letter (List.mem_reverse.mp member)]
    rfl
  constructor
  · rw [parent, letters, List.dropWhile_append_of_pos inName,
      List.dropWhile_cons_of_neg (by simp [is])]
    simp
  · rw [fileName, letters, List.takeWhile_append_of_pos inName,
      List.takeWhile_cons_of_neg (by simp [is])]
    simp

theorem exists_last_slash {path : String} (has : ∃ letter ∈ path.toList, isSlash letter = true) :
    ∃ before slash name, path = before ++ String.singleton slash ++ name ∧ isSlash slash = true ∧
      ∀ letter ∈ name.toList, isSlash letter = false := by
  obtain ⟨letter, member, isSlashLetter⟩ := has
  -- The last slash is the first of the reversed text.
  have found : (path.toList.reverse.find? isSlash).isSome = true :=
    List.find?_isSome.mpr ⟨letter, List.mem_reverse.mpr member, isSlashLetter⟩
  obtain ⟨slash, first⟩ := Option.isSome_iff_exists.mp found
  obtain ⟨is, after, before, parts, free⟩ := List.find?_eq_some_iff_append.mp first
  refine ⟨String.ofList before.reverse, slash, String.ofList after.reverse, ?_, is, ?_⟩
  · rw [List.reverse_eq_iff] at parts
    rw [← String.toList_inj, parts]
    simp
  · intro other inside
    rw [String.toList_ofList, List.mem_reverse] at inside
    simpa using free other inside

theorem singleton_slash_size (is : isSlash slash = true) : slash.utf8Size = 1 := by
  rcases is_slash_iff.mp is with rfl | rfl <;> decide

/-- Counted in bytes, the slash is between two boundaries that are one byte apart. -/
theorem exists_slash_position (is : isSlash slash = true)
    {path before : String} (joined : path = before ++ String.singleton slash ++ name) :
    ∃ (position : path.Pos) (inside : position ≠ path.endPos), position.get inside = slash ∧
      (path.sliceTo position).copy = before ∧
      (path.sliceFrom (position.next inside)).copy = name ∧
      (position.next inside).offset.byteIdx = position.offset.byteIdx + 1 := by
  have cut : path = before ++ (String.singleton slash ++ name) := by
    rw [joined, String.append_assoc]
  have splits := String.Pos.splits_ofEqAppend cut
  have inside := splits.ne_endPos_of_singleton
  have next : ((String.Pos.ofEqAppend cut).next inside).Splits _ name := splits.next
  refine ⟨String.Pos.ofEqAppend cut, inside, next.get_eq_of_singleton, splits.copy_sliceTo_eq,
    next.copy_sliceFrom_eq, ?_⟩
  rw [splits.offset_eq_rawEndPos, next.offset_eq_rawEndPos]
  simp [singleton_slash_size is]

end cut

/-- A path without slashes is all name. -/
theorem parts_without_slash {path : String}
    (free : ∀ letter ∈ path.toList, isSlash letter = false) :
    parent path = "" ∧ fileName path = path := by
  have inPath : ∀ letter ∈ path.toList.reverse, (!isSlash letter) = true := by
    intro letter member
    rw [free letter (List.mem_reverse.mp member)]
    rfl
  constructor
  · rw [parent, List.dropWhile_eq_nil_iff.mpr inPath]
    rfl
  · rw [fileName, List.takeWhile_eq_self_iff.mpr inPath, List.reverse_reverse, String.ofList_toList]

theorem without_trailing_separator_append (before : String) :
    withoutTrailingSeparator (before ++ "/") = before := by
  rw [withoutTrailingSeparator, if_pos (ends_with_separator_iff.mpr ⟨before, rfl⟩),
    String.toList_append, separator_text, List.dropLast_concat, String.ofList_toList]

theorem without_trailing_separator_of_not {path : String} (ends : ∀ before, path ≠ before ++ "/") :
    withoutTrailingSeparator path = path := by
  rw [withoutTrailingSeparator, if_neg]
  intro separated
  obtain ⟨before, same⟩ := ends_with_separator_iff.mp separated
  exact ends before same

/-- Going down to a child is joining: both put one separator in front of the name. -/
theorem child_eq_join (directory name : String) : child directory name = join directory name := by
  by_cases ends : endsWithSeparator directory = true
  · obtain ⟨before, rfl⟩ := ends_with_separator_iff.mp ends
    rw [child, if_pos ends, join, without_trailing_separator_append]
  · rw [child, if_neg ends, join, withoutTrailingSeparator, if_neg ends]

theorem parts_join (directory : String) {name : String}
    (free : ∀ letter ∈ name.toList, isSlash letter = false) :
    parent (join directory name) = withoutTrailingSeparator directory ∧
      fileName (join directory name) = name := by
  have text : "/" = String.singleton '/' := by decide
  rw [join, text]
  exact parts_of_cut (withoutTrailingSeparator directory) (by decide) free

/-- The parts of a path are what is in front of this position, where a slash is, and what is
behind it. A position in a text is a count of bytes that is a boundary between characters. -/
structure IsCutAt (path : String) (position : path.Pos) (inside : position ≠ path.endPos) :
    Prop where
  slash : position.get inside = '/' ∨ position.get inside = '\\'
  whole : path = parent path ++ String.singleton (position.get inside) ++ fileName path
  last : '/' ∉ (fileName path).toList ∧ '\\' ∉ (fileName path).toList
  front : (path.sliceTo position).copy = parent path
  back : (path.sliceFrom (position.next inside)).copy = fileName path
  single_byte : (position.next inside).offset.byteIdx = position.offset.byteIdx + 1

theorem exists_cut {path : String} (has : '/' ∈ path.toList ∨ '\\' ∈ path.toList) :
    ∃ position inside, IsCutAt path position inside := by
  have slashed : ∃ letter ∈ path.toList, isSlash letter = true := by
    rcases has with forward | backward
    · exact ⟨'/', forward, by decide⟩
    · exact ⟨'\\', backward, by decide⟩
  obtain ⟨before, slash, name, joined, is, free⟩ := exists_last_slash slashed
  have parts := parts_of_cut before is free
  rw [← joined] at parts
  obtain ⟨above, leaf⟩ := parts
  obtain ⟨position, inside, found, front, back, next⟩ := exists_slash_position is joined
  refine ⟨position, inside, ?_⟩
  constructor
  · rwa [found, ← is_slash_iff]
  · rwa [above, leaf, found]
  · rwa [leaf, ← free_of_slashes_iff]
  · rw [above, front]
  · rw [leaf, back]
  · exact next

/-- A path with a slash of either kind is what precedes the last one, that slash, and a name
without any, and may be cut there at counts of bytes; a path without slashes is all name. What is
joined to a directory is the name of the result, and the directory, less one separator at its end,
is the parent. Going down to a child is joining. -/
theorem cutting_undoes_joining :
    (∀ path : String, '/' ∈ path.toList ∨ '\\' ∈ path.toList →
        ∃ position inside, IsCutAt path position inside) ∧
      (∀ path : String, '/' ∉ path.toList → '\\' ∉ path.toList →
        parent path = "" ∧ fileName path = path) ∧
      (∀ directory name : String, '/' ∉ name.toList → '\\' ∉ name.toList →
        fileName (join directory name) = name ∧
          (∀ before, directory = before ++ "/" → parent (join directory name) = before) ∧
          ((∀ before, directory ≠ before ++ "/") → parent (join directory name) = directory)) ∧
      ∀ directory name : String, child directory name = join directory name := by
  refine ⟨fun path => exists_cut, ?_, ?_, child_eq_join⟩
  · intro path forward backward
    exact parts_without_slash (free_of_slashes_iff.mpr ⟨forward, backward⟩)
  · intro directory name forward backward
    obtain ⟨above, leaf⟩ := parts_join directory (free_of_slashes_iff.mpr ⟨forward, backward⟩)
    rw [above]
    refine ⟨leaf, ?_, without_trailing_separator_of_not⟩
    rintro before rfl
    exact without_trailing_separator_append before

theorem sample_paths_cut :
    ('/' ∈ "ä/b\\ç".toList ∧ parent "ä/b\\ç" = "ä/b" ∧ fileName "ä/b\\ç" = "ç" ∧
      ∃ position inside, IsCutAt "ä/b\\ç" position inside) ∧
    ('/' ∉ "ç".toList ∧ '\\' ∉ "ç".toList ∧ parent "ç" = "" ∧
      fileName (join "ä//" "ç") = "ç" ∧ parent (join "ä//" "ç") = "ä/" ∧
      parent (join "ä" "ç") = "ä") ∧
    child "ä//" "ç" = join "ä//" "ç" := by
  obtain ⟨cut, bare, joined, down⟩ := cutting_undoes_joining
  have forward : '/' ∈ "ä/b\\ç".toList := by decide
  have noForward : '/' ∉ "ç".toList := by decide
  have noBackward : '\\' ∉ "ç".toList := by decide
  have plain : ∀ before, "ä" ≠ before ++ "/" := by
    intro before same
    exact absurd (ends_with_separator_iff.mpr ⟨before, same⟩) (by decide)
  exact ⟨⟨forward, by decide, by decide, cut _ (.inl forward)⟩,
    ⟨noForward, noBackward, (bare _ noForward noBackward).1,
      (joined "ä//" _ noForward noBackward).1, (joined _ _ noForward noBackward).2.1 "ä/" rfl,
      (joined _ _ noForward noBackward).2.2 plain⟩,
    down _ _⟩

end ArchiveBrowser.Path

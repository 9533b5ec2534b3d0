import ArchiveBrowser.Archive.Directory
import ArchiveBrowser.Proofs.Path.Steps

/-!
# How a directory resolves the paths of its archive

`resolve_cases` says all that resolving can do. A path is refused for its first character or
for a segment `..`; any other goes on from the root with the steps that it has itself.
-/

set_option autoImplicit false

namespace ArchiveBrowser.DirectoryArchive

theorem resolve_absolute (archive : DirectoryArchive) (rest : String) :
    archive.resolve ("/" ++ rest) =
      if Path.trimmed rest = "" then .ok archive.root
      else if Path.Component.parent ∈ Path.components (Path.trimmed rest) then
        .error (.pathTraversal ("/" ++ rest))
      else .ok (Path.push archive.root (Path.trimmed rest)) := by
  simp only [resolve, Path.after_root_eq_some.mpr rfl, String.isEmpty_iff, List.contains_iff_mem]
  rfl

theorem steps_of_rest (rest : String) :
    Path.steps (Path.trimmed rest) = Path.steps ("/" ++ rest) := by
  rw [Path.steps_trimmed, Path.steps_slash]

theorem parent_mem_trimmed {rest : String} :
    Path.Component.parent ∈ Path.components (Path.trimmed rest) ↔ ".." ∈ Path.pieces rest := by
  rw [Path.parent_mem_components, ← Path.parent_mem_steps, Path.steps_trimmed,
    Path.parent_mem_steps]

theorem resolve_inside (archive : DirectoryArchive) {rest : String}
    (inside : ".." ∉ Path.pieces rest) :
    archive.resolve ("/" ++ rest) = .ok (if Path.trimmed rest = "" then archive.root
      else Path.push archive.root (Path.trimmed rest)) := by
  rw [resolve_absolute, if_neg (mt parent_mem_trimmed.mp inside)]
  split <;> rfl

/-- The outcomes of resolving a path, and what the text of the path has to do with them. -/
theorem resolve_cases (archive : DirectoryArchive) (path : String) :
    (Path.isAbsolute path = false ∧ archive.resolve path = .error (.invalidPath path)) ∨
      (Path.isAbsolute path = true ∧ ".." ∈ Path.pieces path ∧
        archive.resolve path = .error (.pathTraversal path)) ∨
      (Path.isAbsolute path = true ∧ ".." ∉ Path.pieces path ∧
        ∃ rest, Path.isAbsolute rest = false ∧ Path.steps rest = Path.steps path ∧
          archive.resolve path =
            .ok (if rest = "" then archive.root else Path.push archive.root rest)) := by
  cases absolute : Path.isAbsolute path with
  | false =>
      left
      have none : Path.afterRoot? path = none := by
        rw [← Option.not_isSome_iff_eq_none, Path.after_root_is_some, absolute]
        exact Bool.false_ne_true
      refine ⟨rfl, ?_⟩
      unfold resolve
      rw [none]
  | true =>
      right
      obtain ⟨rest, rfl⟩ := Path.is_absolute_iff.mp absolute
      by_cases refused : ".." ∈ Path.pieces ("/" ++ rest)
      · left
        have upwards := parent_mem_trimmed.mpr (Path.parent_mem_slash.mp refused)
        have full : Path.trimmed rest ≠ "" := by
          intro empty
          rw [empty] at upwards
          exact absurd upwards (by decide)
        refine ⟨rfl, refused, ?_⟩
        rw [resolve_absolute, if_neg full, if_pos upwards]
      · right
        refine ⟨rfl, refused, Path.trimmed rest, Path.relative_trimmed rest, steps_of_rest rest, ?_⟩
        exact archive.resolve_inside (mt Path.parent_mem_slash.mpr refused)

variable {directory : DirectoryArchive} {path target : String}

theorem resolve_eq_ok :
    directory.resolve path = .ok target ↔ ∃ rest, path = "/" ++ rest ∧ ".." ∉ Path.pieces rest ∧
      target = if Path.trimmed rest = "" then directory.root
        else Path.push directory.root (Path.trimmed rest) := by
  constructor
  · intro resolved
    rcases directory.resolve_cases path with
      ⟨-, refused⟩ | ⟨-, -, refused⟩ | ⟨absolute, inside, -⟩
    · rw [refused] at resolved
      cases resolved
    · rw [refused] at resolved
      cases resolved
    · obtain ⟨rest, rfl⟩ := Path.is_absolute_iff.mp absolute
      rw [Path.parent_mem_slash] at inside
      rw [directory.resolve_inside inside] at resolved
      exact ⟨rest, rfl, inside, (Except.ok.inj resolved).symm⟩
  · rintro ⟨rest, rfl, inside, rfl⟩
    exact directory.resolve_inside inside

/-- The same in terms of the whole path. -/
theorem resolves_to_iff :
    directory.resolve path = .ok target ↔ Path.isAbsolute path = true ∧ ".." ∉ Path.pieces path ∧
      target = if Path.trimmed path = "" then directory.root
        else Path.push directory.root (Path.trimmed path) := by
  rw [resolve_eq_ok]
  have trimmed : ∀ rest, Path.trimmed ("/" ++ rest) = Path.trimmed rest := by
    intro rest
    unfold Path.trimmed
    rw [String.toList_append]
    rfl
  constructor
  · rintro ⟨rest, rfl, inside, same⟩
    rw [Path.parent_mem_slash, trimmed]
    exact ⟨Path.is_absolute_iff.mpr ⟨rest, rfl⟩, inside, same⟩
  · rintro ⟨absolute, inside, same⟩
    obtain ⟨rest, rfl⟩ := Path.is_absolute_iff.mp absolute
    rw [trimmed] at same
    exact ⟨rest, rfl, mt Path.parent_mem_slash.mpr inside, same⟩

theorem resolve_eq_error {error : Error} :
    directory.resolve path = .error error ↔
      Path.isAbsolute path = false ∧ error = .invalidPath path ∨
        error = .pathTraversal path ∧
          ∃ place, Path.segments? path = some place ∧ ".." ∈ place := by
  rcases directory.resolve_cases path with
    ⟨relative, refused⟩ | ⟨absolute, upwards, refused⟩ | ⟨absolute, inside, rest, -, -, resolved⟩
  · rw [refused, Path.segments_eq_none.mpr relative]
    simp [relative, eq_comm]
  · obtain ⟨place, cut⟩ := Path.segments_of_absolute absolute
    rw [refused, cut]
    simp [absolute, (Path.parent_mem_segments cut).mp upwards, eq_comm]
  · obtain ⟨place, cut⟩ := Path.segments_of_absolute absolute
    rw [resolved, cut]
    simp [absolute, mt (Path.parent_mem_segments cut).mpr inside]

/-- A path inside an archive is resolved unless one of its segments leads upwards. -/
theorem resolves_iff {place : List String} (cut : Path.segments? path = some place) :
    (∃ target, directory.resolve path = .ok target) ↔ ".." ∉ place := by
  have absolute := Path.absolute_of_segments cut
  rcases directory.resolve_cases path with
    ⟨relative, -⟩ | ⟨-, upwards, refused⟩ | ⟨-, inside, rest, -, -, resolved⟩
  · rw [absolute] at relative
    cases relative
  · rw [refused]
    simp [(Path.parent_mem_segments cut).mp upwards]
  · rw [resolved]
    simp [mt (Path.parent_mem_segments cut).mpr inside]

end ArchiveBrowser.DirectoryArchive

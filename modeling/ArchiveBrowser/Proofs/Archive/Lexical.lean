import ArchiveBrowser.Proofs.Archive.Resolving

/-!
# Where the paths of a directory lead, by their text

What a path resolves to is read off its components: those of the root, and behind them the
segments of the path that are names. Neither the slashes in front of a path nor any other way of
writing it makes a difference, and nothing in it leads upwards or replaces the root.
-/

set_option autoImplicit false

namespace ArchiveBrowser.DirectoryArchive

open ArchiveBrowser.Path (Component)

/-- What is in front where there is no root to go on from: a `.` at the start of a relative path
keeps its meaning. -/
def lead (root : String) (place : List String) : List Component :=
  if root = "" ∧ (place.filter (· ≠ "")).head? = some "." then [.current] else []

/-- A path with these segments leads to `target` by going on from the root with names alone. -/
structure GoesOn (root : String) (place : List String) (target : String) : Prop where
  components : Path.components target =
    lead root place ++ Path.components root ++ (place.filter Path.isStep).map .name
  root_kept : Path.components root <+: Path.components target
  no_way_up : (Path.components target).count .parent = (Path.components root).count .parent

variable {directory : DirectoryArchive} {path target root : String} {place : List String}

theorem lead_of_root (rooted : root ≠ "") (place : List String) : lead root place = [] :=
  if_neg fun both => rooted both.1

theorem goes_on_of_pieces {pieces : List String}
    (components : Path.components target =
      lead root pieces ++ Path.components root ++ (pieces.filter Path.isStep).map .name) :
    GoesOn root pieces target where
  components := components
  root_kept := by
    rw [components]
    by_cases rooted : root = ""
    · have nothing : Path.components "" = [] := by decide
      rw [rooted, nothing]
      exact List.nil_prefix
    · rw [lead_of_root rooted, List.nil_append]
      exact List.prefix_append _ _
  no_way_up := by
    have named : ((pieces.filter Path.isStep).map Component.name).count .parent = 0 := by
      simp [List.count_eq_zero]
    have leading : (lead root pieces).count .parent = 0 := by
      unfold lead
      split <;> decide
    rw [components, List.count_append, List.count_append, named, leading, Nat.zero_add,
      Nat.add_zero]

theorem goes_on_trimmed (root : String) {rest : String} (inside : ".." ∉ Path.pieces rest)
    (cut : Path.segments? ("/" ++ rest) = some place) :
    GoesOn root place
      (if Path.trimmed rest = "" then root else Path.push root (Path.trimmed rest)) := by
  have kept : ∀ keep : String → Bool, keep "" = false →
      (Path.pieces (Path.trimmed rest)).filter keep = place.filter keep := by
    intro keep drops
    rw [Path.filter_pieces_trimmed drops, ← Path.filter_pieces_of_segments drops cut,
      Path.pieces_slash, List.filter_cons_of_neg (by simp [drops])]
  apply goes_on_of_pieces
  have steps := kept Path.isStep rfl
  have written := kept (· ≠ "") (by decide)
  have insideTrimmed : ".." ∉ Path.pieces (Path.trimmed rest) := by
    rwa [← Path.parent_mem_steps, Path.steps_trimmed, Path.parent_mem_steps]
  have inner := Path.inner_components_of_steps insideTrimmed
  have relative := Path.relative_trimmed rest
  -- Nothing is left of a path of slashes alone, and it leads to the root itself.
  by_cases empty : Path.trimmed rest = ""
  · have nothing : Path.pieces "" = [""] := by decide
    rw [empty, nothing] at steps written
    rw [if_pos empty, lead, ← written, ← steps]
    simp [Path.isStep]
  · rw [if_neg empty, ← steps, ← inner, lead, ← written]
    by_cases rooted : root = ""
    · have nothing : Path.components "" = [] := by decide
      rw [rooted, Path.push_empty, nothing, List.append_nil, Path.components_of_relative relative empty]
      simp
    · rw [if_neg fun both => rooted both.1, List.nil_append,
        Path.components_push_relative rooted relative]

theorem goes_on_of_resolved (resolved : directory.resolve path = .ok target)
    (cut : Path.segments? path = some place) : GoesOn directory.root place target := by
  obtain ⟨rest, rfl, inside, rfl⟩ := resolve_eq_ok.mp resolved
  exact goes_on_trimmed directory.root inside cut

/-- Paths are told apart by their steps alone. -/
theorem resolve_of_same_steps (rooted : directory.root ≠ "")
    (resolved : directory.resolve path = .ok target) (cut : Path.segments? path = some place)
    {other : String} {others : List String} (otherCut : Path.segments? other = some others)
    (same : place.filter Path.isStep = others.filter Path.isStep) :
    ∃ also, directory.resolve other = .ok also ∧
      Path.components also = Path.components target := by
  have inside := (resolves_iff cut).mp ⟨target, resolved⟩
  rw [← Path.parent_mem_filter, same, Path.parent_mem_filter] at inside
  obtain ⟨also, answer⟩ := (resolves_iff otherCut).mpr inside
  refine ⟨also, answer, ?_⟩
  rw [(goes_on_of_resolved answer otherCut).components,
    (goes_on_of_resolved resolved cut).components, same, lead_of_root rooted, lead_of_root rooted]

/-- Whatever a path resolves to goes on from the root by the names of the path alone, and a path
is refused only if it does not start with a slash or has a segment that leads upwards. -/
theorem resolves_below_root (directory : DirectoryArchive) (path : String) :
    (∀ target, directory.resolve path = .ok target →
        ∃ place, Path.segments? path = some place ∧ GoesOn directory.root place target) ∧
      (∀ error, directory.resolve path = .error error ↔
        Path.isAbsolute path = false ∧ error = .invalidPath path ∨
          error = .pathTraversal path ∧
            ∃ place, Path.segments? path = some place ∧ ".." ∈ place) ∧
      ∀ target other place others, directory.root ≠ "" → directory.resolve path = .ok target →
        Path.segments? path = some place → Path.segments? other = some others →
        place.filter Path.isStep = others.filter Path.isStep →
        ∃ also, directory.resolve other = .ok also ∧
          Path.components also = Path.components target := by
  refine ⟨?_, fun error => resolve_eq_error, ?_⟩
  · intro target resolved
    obtain ⟨rest, rfl, -, -⟩ := resolve_eq_ok.mp resolved
    obtain ⟨place, cut⟩ := Path.segments_of_absolute (Path.is_absolute_iff.mpr ⟨rest, rfl⟩)
    exact ⟨place, cut, goes_on_of_resolved resolved cut⟩
  · intro target other place others rooted resolved cut otherCut same
    exact resolve_of_same_steps rooted resolved cut otherCut same

namespace SampleRoots

def rooted : DirectoryArchive := { system := .empty, root := "/r/" }

/-- Relative to the working directory, with nothing of a root in front. -/
def rootless : DirectoryArchive := { system := .empty, root := "" }

end SampleRoots

open SampleRoots in
theorem sample_resolved_below_root :
    rooted.resolve "//a/./b" = .ok "/r/a/./b" ∧
      GoesOn "/r/" ["", "a", ".", "b"] "/r/a/./b" ∧
      rooted.resolve "/a//b/" = .ok "/r/a//b/" ∧
      Path.components "/r/a//b/" = Path.components "/r/a/./b" ∧
      rooted.resolve "//a/.." = .error (.pathTraversal "//a/..") ∧
      rootless.resolve "//./a" = .ok "./a" ∧ GoesOn "" ["", ".", "a"] "./a" ∧
      lead "" ["", ".", "a"] = [.current] := by
  have resolved : rooted.resolve "//a/./b" = .ok "/r/a/./b" := rfl
  have cut : Path.segments? "//a/./b" = some ["", "a", ".", "b"] := rfl
  have otherCut : Path.segments? "/a//b/" = some ["a", "", "b", ""] := rfl
  have upwards : Path.segments? "//a/.." = some ["", "a", ".."] := rfl
  have bare : rootless.resolve "//./a" = .ok "./a" := rfl
  have bareCut : Path.segments? "//./a" = some ["", ".", "a"] := rfl
  obtain ⟨leads, -, alike⟩ := resolves_below_root rooted "//a/./b"
  obtain ⟨place, same, goesOn⟩ := leads _ resolved
  obtain rfl := Option.some.inj (cut.symm.trans same)
  obtain ⟨also, other, components⟩ :=
    alike _ "/a//b/" _ _ (by decide) resolved cut otherCut (by decide)
  have spelt : rooted.resolve "/a//b/" = .ok "/r/a//b/" := rfl
  obtain rfl : also = "/r/a//b/" := Except.ok.inj (other.symm.trans spelt)
  obtain ⟨-, refuses, -⟩ := resolves_below_root rooted "//a/.."
  obtain ⟨leadsBare, -, -⟩ := resolves_below_root rootless "//./a"
  obtain ⟨barePlace, bareSame, goesOnBare⟩ := leadsBare _ bare
  obtain rfl := Option.some.inj (bareCut.symm.trans bareSame)
  exact ⟨resolved, goesOn, other, components,
    (refuses _).mpr (.inr ⟨rfl, _, upwards, by decide⟩), bare, goesOnBare, by decide⟩

end ArchiveBrowser.DirectoryArchive

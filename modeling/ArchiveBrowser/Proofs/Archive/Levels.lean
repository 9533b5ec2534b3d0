import ArchiveBrowser.Proofs.Archive.Entries
import ArchiveBrowser.Proofs.Archive.Opened
import ArchiveBrowser.Proofs.Tree.Levels
import ArchiveBrowser.Proofs.Zip.Recursion

/-!
# The levels that an archive may have

A tree that comes to an end does so within the levels that its archive may have. In a directory
every level makes the path longer to which the path of the archive resolves, and a path that is
too long has nothing below it. In a container the calls come to an end, and then they are bounded
by the names of the files.
-/

set_option autoImplicit false

namespace ArchiveBrowser

namespace DirectoryArchive

variable {directory : DirectoryArchive} {path target : String}

theorem ended_of_resolved {levels : Nat} (resolved : directory.resolve path = .ok target)
    (positive : 0 < levels)
    (enough : target ≠ "" → FileSystem.pathLimit + 1 < target.utf8ByteSize + levels)
    (lasts : List Bool) :
    (Tree.draw directory.toArchive .tooDeep levels path lasts).ending ≠ .tooDeep := by
  induction levels generalizing path target lasts with
  | zero => exact absurd positive (Nat.lt_irrefl 0)
  | succ levels ih =>
      simp only [Tree.draw]
      cases asked : directory.toArchive.sortedChildren path with
      | error error =>
          intro deep
          cases deep
      | ok sorted =>
          refine Tree.draw_entries_ended (fun text member lasts => ?_) lasts
          obtain ⟨names, listed, inside⟩ := Archive.listed_of_sorted asked member
          obtain ⟨holder, place, name, also, leads, -, rfl, -⟩ := entry_of_listed listed inside
          obtain rfl : target = holder := Except.ok.inj (resolved.symm.trans also)
          -- Below a path that is too long nothing is listed, and that of a child is longer.
          have room := enough (FileSystem.ne_empty_of_locate leads)
          have short := (FileSystem.follow_of_locate leads).2.1
          have longer : target.utf8ByteSize + name.text.utf8ByteSize ≤
              (Path.push target name.text).utf8ByteSize := Path.size_push name.is_name.relative
          have letters : name.text.utf8ByteSize ≠ 0 :=
            mt String.utf8ByteSize_eq_zero_iff.mp name.is_name.nonempty
          apply ih (resolve_child resolved name.is_name) <;> omega

theorem drawing_ended (directory : DirectoryArchive) (path : String) :
    (Tree.drawing directory.toArchive path none).ending ≠ .tooDeep := by
  cases resolved : directory.resolve path with
  | error error =>
      have positive : 0 < directory.toArchive.height := Nat.succ_pos FileSystem.pathLimit
      rw [Tree.drawing, Tree.draw_refused (list_of_refused resolved) .tooDeep positive []]
      intro deep
      cases deep
  | ok target =>
      have height : directory.toArchive.height = FileSystem.pathLimit + 1 := rfl
      rw [Tree.drawing, height]
      apply ended_of_resolved resolved (Nat.succ_pos _)
      intro nonempty
      have letters : target.utf8ByteSize ≠ 0 := mt String.utf8ByteSize_eq_zero_iff.mp nonempty
      omega

end DirectoryArchive

namespace ZipArchive

variable {zip : ZipArchive} {path : String} {full : Tree.Drawing}

theorem absolute_of_yields (yields : Tree.Yields zip.toArchive path none full)
    (complete : full.ending = .complete) : Path.isAbsolute path = true := by
  obtain ⟨-, levels, rfl⟩ := yields
  cases levels with
  | zero => cases complete
  | succ levels =>
      by_contra relative
      have refused : zip.toArchive.list path = .error (.invalidPath path) := if_neg relative
      rw [Tree.draw_refused refused .tooDeep (Nat.succ_pos levels) []] at complete
      cases complete

theorem complete_of_yields (indexed : zip.index = indexOf zip.table.names)
    (yields : Tree.Yields zip.toArchive path none full) (complete : full.ending = .complete) :
    (Tree.drawing zip.toArchive path none).ending = .complete := by
  have absolute := absolute_of_yields yields complete
  obtain ⟨-, levels, rfl⟩ := yields
  rw [← (calls_end indexed absolute).2]
  apply (Tree.finite_calls_up_to zip.toArchive levels path).subset
  intro chain calls
  have short := (Tree.draw_complete (answers zip) levels absolute []).mp complete chain calls
  exact ⟨calls, Nat.le_of_lt short⟩

end ZipArchive

/-- The levels that an opened archive may have suffice for every tree that comes to an end. -/
theorem Archive.OpensFrom.drawing_eq {system : FileSystem} {archive : Archive}
    (opens : OpensFrom system archive) {path : String} {full : Tree.Drawing}
    (yields : Tree.Yields archive path none full) (complete : full.ending = .complete) :
    Tree.drawing archive path none = full := by
  have ended : (Tree.drawing archive path none).ending ≠ .tooDeep := by
    cases opens with
    | directory root => exact DirectoryArchive.drawing_ended _ path
    | zip zip indexed =>
        rw [ZipArchive.complete_of_yields indexed yields complete]
        intro deep
        cases deep
  exact (Tree.yields_drawing fun _ => ended).unique yields

end ArchiveBrowser

import ArchiveBrowser.Command.List
import ArchiveBrowser.Proofs.Archive.Opened
import ArchiveBrowser.Proofs.Command.Printing
import ArchiveBrowser.Proofs.Command.Target
import ArchiveBrowser.Proofs.Tree.Levels

/-!
# Commands on a path that is refused

Listing a directory, showing a file and digesting it ask the archive before they write, so that
a path that is refused leaves the output alone. A tree is headed by its start before anything
is asked, and a tree of no levels asks nothing at all.
-/

set_option autoImplicit false

namespace ArchiveBrowser.Command

variable {archive : Archive} {path : String} {error : Error}

theorem list_refused (refuses : archive.Refuses path error) (target : String)
    (options : ListOptions) (sink : Sink) :
    (listIn archive target path options sink).value = (.error (.archive error), sink) := by
  have asked : (entries archive path options.filter).value = .error error := by
    rw [entries_value, Archive.sorted_children_eq, refuses.list]
    rfl
  rw [listIn, Log.Logged.map, asked]

/-- The header is written, and then the refusal is met. -/
theorem tree_refused (refuses : archive.Refuses path error) (tall : 0 < archive.height)
    {depth : Option Nat} (levels : depth ≠ some 0) (sink : Sink) :
    treeIn archive path depth sink =
      ((print sink (treeHeader path)).1.bind fun _ => .error (.archive error),
        (print sink (treeHeader path)).2) := by
  have drawing : Tree.drawing archive path depth = .ended (.failed error) := by
    cases depth with
    | none => exact Tree.draw_refused refuses.list .tooDeep tall []
    | some count =>
        refine Tree.draw_refused refuses.list .complete ?_ []
        apply Nat.pos_of_ne_zero
        rintro rfl
        exact levels rfl
  have upper : treePieces path (.ended (.failed error)) =
      (treeHeader path, some (.archive error)) := rfl
  unfold treeIn
  rw [drawing, upper]
  dsimp only
  cases print sink (treeHeader path) with
  | mk outcome after => cases outcome <;> rfl

/-- A tree of no levels is its start, whatever the archive says to that. -/
theorem prints_tree_without_levels (archive : Archive) (path : String) :
    Prints (treeIn archive path (some 0)) (path ++ "\n\n0 directories, 0 files\n") := by
  have nothing : Tree.drawing archive path (some 0) = .ended .complete := rfl
  have counts : summary (.ended .complete) = "0 directories, 0 files" := by decide
  have printed : Prints (treeIn archive path (some 0)) (String.join
      (([path] ++ ["", summary (Tree.drawing archive path (some 0))]).map (· ++ "\n"))) :=
    prints_tree rfl rfl
  have text : String.join (([path] ++ ["", "0 directories, 0 files"]).map (· ++ "\n")) =
      path ++ "\n\n0 directories, 0 files\n" := by
    simp [String.join_cons, String.append_assoc]
  rw [nothing, counts, text] at printed
  exact printed

/-- On an archive that opens, a path that its kind refuses is refused by every command but a
tree before it writes. A tree has then written its header; one without levels does not refuse
the path and succeeds. -/
theorem refused_before_output {system : FileSystem} {target : String}
    (opened : (Archive.ofTarget system target).value = .ok archive)
    (refused : archive.kind.refusal? path = some error) :
    (∀ options sink,
        (list system target path options sink).value = (.error (.archive error), sink)) ∧
      (∀ sink, (showFile system target path sink).value = (.error (.archive error), sink)) ∧
      (∀ algorithm sink, (digestFile system (some target) algorithm path sink).value =
        (.error (.archive error), sink)) ∧
      (∀ depth sink, depth ≠ some 0 → (tree system target path depth sink).value =
        ((print sink (treeHeader path)).1.bind fun _ => .error (.archive error),
          (print sink (treeHeader path)).2)) ∧
      Prints (fun sink => (tree system target path (some 0) sink).value)
        (path ++ "\n\n0 directories, 0 files\n") := by
  have opens := Archive.opens_of_target opened
  have refuses := Archive.refuses_of_refusal (opens.uniform path) refused
  have both := both_fail opened (with_file_refused refuses.open_file target)
  refine ⟨?_, fun sink => (both sink).1, fun algorithm sink => (both sink).2 algorithm, ?_, ?_⟩
  · intro options sink
    exact (with_archive_value opened sink _).trans (list_refused refuses target options sink)
  · intro depth sink levels
    exact (with_archive_value opened sink _).trans
      (tree_refused refuses opens.height_positive levels sink)
  · intro sink accepts
    obtain ⟨after, printed, outcome⟩ := prints_tree_without_levels archive path sink accepts
    exact ⟨after, (with_archive_value opened sink _).trans printed, outcome⟩

namespace SampleRefused

def top : FileName := ⟨Bytes.ofText "t", by decide⟩

def system : FileSystem where
  objects := [([top], .directory)]
  workingDirectory := []
  distinct := by decide

def directory : DirectoryArchive := { system, root := "t" }

theorem opened : (Archive.ofTarget system "t").value = .ok directory.toArchive := by
  cbv

end SampleRefused

open SampleRefused in
theorem sample_refused_before_output :
    (Archive.ofTarget system "t").value = .ok directory.toArchive ∧
      directory.toArchive.kind.refusal? "/.." = some (.pathTraversal "/..") ∧
      some 1 ≠ some 0 ∧
      (showFile system "t" "/.." .unlimited).value =
        (.error (.archive (.pathTraversal "/..")), .unlimited) ∧
      (tree system "t" "/.." (some 1) .unlimited).value.1 =
        .error (.archive (.pathTraversal "/..")) := by
  have refused : directory.toArchive.kind.refusal? "/.." = some (.pathTraversal "/..") := by
    decide
  have levels : some 1 ≠ some 0 := by decide
  have header : (print .unlimited (treeHeader "/..")).1 = .ok () := by cbv
  obtain ⟨-, shown, -, drawn, -⟩ := refused_before_output opened refused
  refine ⟨opened, refused, levels, shown _, ?_⟩
  rw [drawn (some 1) _ levels, header]
  rfl

open SampleRefused in
/-- A tree accepts a path that the archive refuses, and writes before it refuses one. -/
theorem tree_writes_before_refusing :
    (Archive.ofTarget system "t").value = .ok directory.toArchive ∧
      directory.toArchive.kind.refusal? "e" = some (.invalidPath "e") ∧
      (tree system "t" "e" (some 0) .unlimited).value.1 = .ok () ∧
      (tree system "t" "e" (some 0) .unlimited).value.2.received =
        Bytes.ofText "e\n\n0 directories, 0 files\n" ∧
      (tree system "t" "e" none .unlimited).value.2.received = Bytes.ofText "e\n" := by
  refine ⟨opened, by decide, ?_, ?_, ?_⟩ <;> cbv

end ArchiveBrowser.Command

import ArchiveBrowser.Proofs.Archive.Directory
import ArchiveBrowser.Proofs.Zip.FileRecords

/-!
# A container with a tree of files as an archive

A table of entries lists a tree if its names are those of the files of the tree, put together
with slashes, and decoding gives their bytes. The container then answers every path from the
files of the tree, although no name in it stands for a directory.
-/

set_option autoImplicit false

namespace ArchiveBrowser

def FileTree.entryName (place : Location) : String :=
  "/".intercalate (place.map FileName.text)

/-- The entries of a table are the files of a tree, in some order. -/
structure Zip.Table.Lists (table : Zip.Table) (tree : FileTree) : Prop where
  names : table.names.Perm (tree.files.map fun file => FileTree.entryName file.1)
  contents : ∀ (entry : Nat) (file : Location × Bytes), file ∈ tree.files →
    table.names[entry]? = some (FileTree.entryName file.1) → table.contents entry = .ok file.2

namespace FileTree

private theorem texts_are_segments (place : Location) :
    Path.AreSegments (place.map FileName.text) := by
  have name_of_mem : ∀ text ∈ place.map FileName.text, Path.IsName text := by
    intro text member
    obtain ⟨name, -, rfl⟩ := List.mem_map.mp member
    exact name.is_name
  constructor
  · intro lone
    exact (name_of_mem "" (by simp [lone])).nonempty rfl
  · intro text member
    exact (name_of_mem text member).free

theorem segments_entry_name (place : Location) :
    Path.segments? ("/" ++ entryName place) = some (place.map FileName.text) :=
  Path.segments_of_segments (texts_are_segments place)

theorem entry_name_file {place : Location} (below : place ≠ []) :
    Path.endsWithSeparator (entryName place) = false := by
  rw [Bool.eq_false_iff]
  intro ends
  obtain ⟨before, same⟩ := Path.ends_with_separator_iff.mp ends
  have cut : Path.pieces (entryName place) = place.map FileName.text :=
    Path.pieces_intercalate (by simpa using below) (texts_are_segments place).2
  have last := Path.pieces_append_separator before ""
  rw [String.append_empty, ← same, cut] at last
  have empty : "" ∈ place.map FileName.text := by
    rw [last]
    exact List.mem_append_right _ (by decide)
  obtain ⟨name, -, noText⟩ := List.mem_map.mp empty
  exact name.is_name.nonempty noText

end FileTree

namespace ZipArchive

variable {table : Zip.Table} {tree : FileTree}

theorem mem_file_names (lists : table.Lists tree) {name : String} :
    name ∈ fileNames table.names ↔ ∃ file ∈ tree.files, FileTree.entryName file.1 = name := by
  rw [fileNames, List.mem_filter, lists.names.mem_iff, List.mem_map]
  constructor
  · intro member
    exact member.1
  · intro member
    obtain ⟨file, inside, rfl⟩ := member
    exact ⟨⟨file, inside, rfl⟩, by simp [FileTree.entry_name_file (tree.below_root file inside)]⟩

theorem payload_is_some_of_lists (lists : table.Lists tree) {path : String}
    {segments : List String} (cut : Path.segments? path = some segments) :
    ((indexOf table.names).payload? path).isSome = (tree.fileAt? segments).isSome := by
  rw [Bool.eq_iff_iff, payload_index_is_some, Option.isSome_iff_exists]
  constructor
  · intro carried
    obtain ⟨name, member, rfl⟩ := carried
    obtain ⟨⟨place, bytes⟩, inside, rfl⟩ := (mem_file_names lists).mp member
    rw [FileTree.segments_entry_name] at cut
    exact ⟨bytes, FileTree.file_at_eq_some.mpr ⟨place, (Option.some.inj cut).symm, inside⟩⟩
  · intro held
    obtain ⟨bytes, held⟩ := held
    obtain ⟨place, rfl, inside⟩ := FileTree.file_at_eq_some.mp held
    refine ⟨_, (mem_file_names lists).mpr ⟨_, inside, rfl⟩, ?_⟩
    exact Path.segments_injective cut (FileTree.segments_entry_name place)

theorem contents_of_lists (lists : table.Lists tree) {path : String} {segments : List String}
    (cut : Path.segments? path = some segments) {entry : Nat}
    (found : (indexOf table.names).payload? path = some entry) :
    ∃ bytes, table.contents entry = .ok bytes ∧ tree.fileAt? segments = some bytes := by
  obtain ⟨⟨name, here, noMarker, rfl⟩, -⟩ := (payload_index_iff table.names path entry).mp found
  have listed : name ∈ fileNames table.names :=
    List.mem_filter.mpr ⟨List.mem_of_getElem? here, by simp [noMarker]⟩
  obtain ⟨⟨place, bytes⟩, inside, rfl⟩ := (mem_file_names lists).mp listed
  rw [FileTree.segments_entry_name] at cut
  refine ⟨bytes, lists.contents entry _ inside here, ?_⟩
  exact FileTree.file_at_eq_some.mpr ⟨place, (Option.some.inj cut).symm, inside⟩

theorem read_of_lists {zip : ZipArchive} (indexed : zip.index = indexOf zip.table.names)
    (lists : zip.table.Lists tree) {path : String} {segments : List String}
    (cut : Path.segments? path = some segments) (absolute : Path.isAbsolute path = true) :
    (zip.toArchive.read path).value = .ok (tree.fileAt? segments) := by
  have opened : (zip.toArchive.openFile path).value = _ := open_file_value absolute
  rw [indexed] at opened
  cases found : (indexOf zip.table.names).payload? path with
  | none =>
      have answered := payload_is_some_of_lists lists cut
      rw [found, Option.isSome_none] at answered
      have noFile : tree.fileAt? segments = none :=
        Option.isNone_iff_eq_none.mp (Option.isSome_eq_false_iff.mp answered.symm)
      rw [found, Option.bind_none] at opened
      rw [noFile]
      exact Archive.read_of_not_opened opened
  | some entry =>
      obtain ⟨bytes, decoded, held⟩ := contents_of_lists lists cut found
      rw [found, Option.bind_some, decoded] at opened
      rw [held]
      exact Archive.read_of_opened opened

/-- Every path that starts with a slash is answered from the tree. -/
theorem shows_tree {zip : ZipArchive} (indexed : zip.index = indexOf zip.table.names)
    (lists : zip.table.Lists tree) {path : String} {segments : List String}
    (cut : Path.segments? path = some segments) :
    zip.toArchive.Shows tree path segments := by
  have absolute := Path.absolute_of_segments cut
  have listed := (list_eq cut : zip.list path = _)
  have follow := child_names_follow zip.table.names segments
  rw [indexed] at listed
  refine ⟨?_, read_of_lists indexed lists cut absolute, _, listed, follow.once, ?_⟩
  · have file := (is_file_eq absolute : zip.isFile path = _)
    rw [indexed, payload_is_some_of_lists lists cut] at file
    exact file
  · intro text
    rw [follow.complete]
    constructor
    · intro follows
      obtain ⟨name, member, whole, wholeCut, through⟩ := follows
      obtain ⟨file, inside, rfl⟩ := (mem_file_names lists).mp member
      rw [FileTree.segments_entry_name] at wholeCut
      cases wholeCut
      exact ⟨file, inside, through⟩
    · intro follows
      obtain ⟨file, inside, through⟩ := follows
      exact ⟨_, (mem_file_names lists).mpr ⟨file, inside, rfl⟩, _,
        FileTree.segments_entry_name file.1, through⟩

end ZipArchive

end ArchiveBrowser

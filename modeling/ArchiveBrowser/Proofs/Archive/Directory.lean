import ArchiveBrowser.Proofs.Archive.Entries
import ArchiveBrowser.Proofs.FileSystem.FileTree

/-!
# A directory with a tree of files as an archive

Where the file system holds a tree at the root of a directory archive, the archive answers a
path from the files of the tree, as long as the file system takes the path that it resolves to.
-/

set_option autoImplicit false

namespace ArchiveBrowser

/-- What the answers of an archive at the path with the given segments say about a tree. -/
structure Archive.Shows (archive : Archive) (tree : FileTree) (path : String)
    (segments : List String) : Prop where
  is_file : archive.isFile path = .ok (tree.fileAt? segments).isSome
  read : (archive.read path).value = .ok (tree.fileAt? segments)
  list : ∃ listed, archive.list path = .ok listed ∧ listed.Nodup ∧
    ∀ text, text ∈ listed ↔ tree.Follows segments text

namespace DirectoryArchive

theorem resolve_plain (archive : DirectoryArchive) {path : String} {segments : List String}
    (cut : Path.segments? path = some segments) (plain : ∀ segment ∈ segments, Path.IsPlain segment) :
    (segments = [] ∧ archive.resolve path = .ok archive.root) ∨
      ∃ rest, Path.pieces rest = segments ∧ Path.isAbsolute rest = false ∧
        archive.resolve path = .ok (Path.push archive.root rest) := by
  obtain ⟨rest, found, same⟩ := Option.map_eq_some_iff.mp cut
  obtain rfl := Path.after_root_eq_some.mp found
  by_cases empty : rest.isEmpty = true
  · rw [if_pos empty] at same
    refine Or.inl ⟨same.symm, ?_⟩
    rw [String.isEmpty_iff.mp empty]
    rfl
  · rw [if_neg empty] at same
    subst same
    have relative := Path.relative_of_plain plain
    have inside : ".." ∉ Path.pieces rest := fun upwards => (plain _ upwards).not_parent rfl
    refine Or.inr ⟨rest, rfl, relative, ?_⟩
    rw [archive.resolve_inside inside, Path.trimmed_of_relative relative,
      if_neg (by simpa using empty)]

variable {archive : DirectoryArchive} {path target : String}

/-- Where the file system does not get, there is nothing. -/
theorem answers_of_lost (resolved : archive.resolve path = .ok target) {error : OsError}
    (lost : archive.system.locate target = .error error) :
    archive.toArchive.list path = .ok [] ∧ archive.toArchive.isFile path = .ok false ∧
      (archive.toArchive.read path).value = .ok none := by
  have nowhere := FileSystem.find_of_lost lost
  have noDirectory : archive.system.isDirectory target = false := by
    rw [FileSystem.isDirectory, nowhere]
  refine ⟨list_of_no_directory resolved noDirectory, ?_, Archive.read_of_not_opened ?_⟩
  · rw [is_file_of_resolved resolved, FileSystem.is_file_of_lost nowhere]
  · rw [open_file_of_resolved resolved,
      FileSystem.opened_of_failure (FileSystem.open_of_lost nowhere)]

variable {tree : FileTree} {base names : Location}

theorem shows_of_located (holds : archive.system.Holds base tree)
    (resolved : archive.resolve path = .ok target)
    (located : archive.system.locate target = .ok (base ++ names))
    (there : (tree.objectAt? names).isSome = true) :
    archive.toArchive.Shows tree path (names.map FileName.text) := by
  have texts := FileTree.texts_of_there there
  obtain ⟨object, held⟩ := Option.isSome_iff_exists.mp there
  have heldHere : archive.system.objectAt? (base ++ names) = some object := (holds names).trans held
  rcases FileTree.object_at_cases held with ⟨bytes, rfl⟩ | rfl
  · have found := FileSystem.find_eq_ok.mpr ⟨_, located, heldHere, by simp⟩
    have file := (tree.file_at_texts texts bytes).mpr held
    have noDirectory : archive.system.isDirectory target = false := by
      rw [FileSystem.isDirectory, found]
    refine ⟨?_, ?_, [], list_of_no_directory resolved noDirectory, List.nodup_nil, ?_⟩
    · rw [is_file_of_resolved resolved, file,
        FileSystem.is_file_eq_true.mpr ⟨_, found, by simp⟩, Option.isSome_some]
    · rw [file]
      apply Archive.read_of_opened
      rw [open_file_of_resolved resolved, FileSystem.opened_of_file found]
    · intro text
      simp only [List.not_mem_nil, false_iff]
      intro follows
      obtain ⟨place, name, same, -, below⟩ := FileTree.follows_iff.mp follows
      have above := FileTree.directory_above (by simp) below
      have alsoTexts : FileName.AreTexts place :=
        fun own member => FileTree.texts_of_there below own (List.mem_append_left _ member)
      rw [← FileName.texts_injective texts alsoTexts same, held] at above
      cases above
  · have directory := FileSystem.access_at_eq_some.mpr heldHere
    have found := FileSystem.find_of_directory located directory
    have isDirectory : archive.system.isDirectory target = true := by
      rw [FileSystem.isDirectory, found]
    have noFile : tree.fileAt? (names.map FileName.text) = none := by
      rw [Option.eq_none_iff_forall_ne_some]
      intro bytes file
      rw [tree.file_at_texts texts, held] at file
      cases file
    have entry : ∀ name, name ∈ archive.system.shown (base ++ names) ↔
        (tree.objectAt? (names ++ [name])).isSome = true := by
      intro name
      rw [FileSystem.shown_of_complete directory rfl, FileSystem.mem_names_in, List.append_assoc,
        holds]
    refine ⟨?_, ?_, _, list_of_located resolved located (by rw [directory]; rfl), ?_, ?_⟩
    · rw [is_file_of_resolved resolved, noFile, FileSystem.isFile, isDirectory, Bool.not_true,
        Bool.and_false, Option.isSome_none]
    · rw [noFile]
      apply Archive.read_of_not_opened
      rw [open_file_of_resolved resolved, FileSystem.opened_of_directory isDirectory]
    · apply FileSystem.nodup_shown.map_on
      intro name member other alsoMember same
      have named := FileTree.texts_of_there ((entry name).mp member)
      have alsoNamed := FileTree.texts_of_there ((entry other).mp alsoMember)
      exact FileName.eq_of_texts (named name (by simp)) (alsoNamed other (by simp)) same
    · intro text
      rw [FileTree.follows_iff, List.mem_map]
      constructor
      · intro listed
        obtain ⟨name, member, same⟩ := listed
        exact ⟨names, name, rfl, same.symm, (entry name).mp member⟩
      · intro follows
        obtain ⟨place, name, same, rfl, below⟩ := follows
        have alsoTexts : FileName.AreTexts place :=
          fun own member => FileTree.texts_of_there below own (List.mem_append_left _ member)
        rw [← FileName.texts_injective texts alsoTexts same] at below
        exact ⟨name, (entry name).mpr below, rfl⟩

theorem shows_of_lost {segments : List String} (resolved : archive.resolve path = .ok target)
    {error : OsError} (lost : archive.system.locate target = .error error)
    (nothing : ∀ names : Location, segments = names.map FileName.text →
      tree.objectAt? names = none) :
    archive.toArchive.Shows tree path segments := by
  obtain ⟨listed, file, read⟩ := answers_of_lost resolved lost
  have noFile : tree.fileAt? segments = none := by
    rw [Option.eq_none_iff_forall_ne_some]
    intro bytes found
    obtain ⟨place, rfl, member⟩ := FileTree.file_at_eq_some.mp found
    have absent := nothing place rfl
    rw [FileTree.object_at_file.mpr member] at absent
    cases absent
  refine ⟨by rw [file, noFile]; rfl, by rw [read, noFile], [], listed, List.nodup_nil, ?_⟩
  intro text
  simp only [List.not_mem_nil, false_iff]
  intro follows
  obtain ⟨place, name, rfl, -, below⟩ := FileTree.follows_iff.mp follows
  have absent := nothing place rfl
  rw [FileTree.directory_above (by simp) below] at absent
  cases absent

/-- Paths with plain segments are answered from the tree, if the file system takes the paths
that they resolve to. -/
theorem shows_tree (archive : DirectoryArchive) (holds : archive.system.Holds base tree)
    (rooted : archive.system.locate archive.root = .ok base) {segments : List String}
    (cut : Path.segments? path = some segments)
    (plain : ∀ segment ∈ segments, Path.IsPlain segment) :
    ∃ target, archive.resolve path = .ok target ∧
      (target.utf8ByteSize ≤ FileSystem.pathLimit →
        archive.toArchive.Shows tree path segments) := by
  rcases archive.resolve_plain cut plain with atRoot | below
  · obtain ⟨rfl, resolved⟩ := atRoot
    refine ⟨_, resolved, fun _ => ?_⟩
    rw [← List.append_nil base] at rooted
    exact shows_of_located holds resolved rooted (FileSystem.root_there tree)
  · obtain ⟨rest, rfl, relative, resolved⟩ := below
    refine ⟨_, resolved, fun short => ?_⟩
    by_cases there : ∃ names : Location, Path.pieces rest = names.map FileName.text ∧
        (tree.objectAt? names).isSome = true
    · obtain ⟨names, named, there⟩ := there
      have located := FileSystem.locate_names holds rooted relative named there short
      rw [named]
      exact shows_of_located holds resolved located there
    · have nothing : ∀ names : Location, Path.pieces rest = names.map FileName.text →
          tree.objectAt? names = none := by
        intro names named
        rw [← Option.not_isSome_iff_eq_none]
        intro held
        exact there ⟨names, named, held⟩
      obtain ⟨error, lost⟩ := FileSystem.locate_nowhere holds rooted relative plain nothing
      exact shows_of_lost resolved lost nothing

end DirectoryArchive

end ArchiveBrowser

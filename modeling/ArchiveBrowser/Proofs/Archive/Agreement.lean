import ArchiveBrowser.Proofs.Archive.Container

/-!
# Both kinds of archive agree on the same files

A directory of the file system and a container with the same files answer alike at every
path with plain segments, as long as the path to which the directory resolves it is no longer
than a path may be. For a longer one the file system finds nothing, whatever there is.
-/

set_option autoImplicit false

namespace ArchiveBrowser

/-- Two archives give the same answers at a path, the listings in any order. -/
structure Archive.Agree (first second : Archive) (path : String) : Prop where
  list : ∃ listed other, first.list path = .ok listed ∧ second.list path = .ok other ∧
    listed.Perm other
  is_file : ∃ answer, first.isFile path = .ok answer ∧ second.isFile path = .ok answer
  read : ∃ answer, (first.read path).value = .ok answer ∧ (second.read path).value = .ok answer

theorem Archive.Shows.agree {first second : Archive} {tree : FileTree} {path : String}
    {segments : List String} (shown : first.Shows tree path segments)
    (also : second.Shows tree path segments) : first.Agree second path where
  list := by
    obtain ⟨listed, asked, once, complete⟩ := shown.list
    obtain ⟨other, otherAsked, otherOnce, otherComplete⟩ := also.list
    refine ⟨listed, other, asked, otherAsked, (List.perm_ext_iff_of_nodup once otherOnce).mpr ?_⟩
    intro text
    rw [complete, otherComplete]
  is_file := ⟨_, shown.is_file, also.is_file⟩
  read := ⟨_, shown.read, also.read⟩

/-- The archive over a directory with just the files of a tree, and the container that lists
them, agree at every path with plain segments that is not resolved to a path that is too long;
there the directory has nothing. -/
theorem directory_agrees_with_container (tree : FileTree) (directory : DirectoryArchive)
    (base : Location) (rooted : directory.system.locate directory.root = .ok base)
    (holds : directory.system.Holds base tree) (sourceName : String) (table : Zip.Table)
    (lists : table.Lists tree) :
    ∃ zip, (ZipArchive.ofTable sourceName table).value = .ok zip ∧
      ∀ path segments, Path.segments? path = some segments →
        (∀ segment ∈ segments, Path.IsPlain segment) →
        ∃ target, directory.resolve path = .ok target ∧
          (target.utf8ByteSize ≤ FileSystem.pathLimit →
            directory.toArchive.Agree zip.toArchive path) ∧
          (FileSystem.pathLimit < target.utf8ByteSize →
            directory.toArchive.list path = .ok [] ∧
              directory.toArchive.isFile path = .ok false ∧
              (directory.toArchive.read path).value = .ok none) := by
  refine ⟨_, ZipArchive.of_table_value sourceName table, ?_⟩
  intro path segments cut plain
  obtain ⟨target, resolved, shown⟩ := directory.shows_tree holds rooted cut plain
  refine ⟨target, resolved, ?_, ?_⟩
  · intro short
    exact (shown short).agree (ZipArchive.shows_tree rfl lists cut)
  · intro long
    obtain ⟨error, lost⟩ := FileSystem.locate_too_long long
    exact DirectoryArchive.answers_of_lost resolved lost

namespace SampleAgreement

def top : FileName := ⟨Bytes.ofText "d", by decide⟩

def upper : FileName := ⟨Bytes.ofText "a", by decide⟩

def lower : FileName := ⟨Bytes.ofText "b", by decide⟩

def beside : FileName := ⟨Bytes.ofText "c", by decide⟩

theorem upper_text : upper.text = "a" := FileName.text_of_bytes rfl

theorem lower_text : lower.text = "b" := FileName.text_of_bytes rfl

theorem beside_text : beside.text = "c" := FileName.text_of_bytes rfl

theorem are_texts : FileName.AreTexts [upper, lower, beside] := by
  intro name member
  simp only [List.mem_cons, List.not_mem_nil, or_false] at member
  rw [FileName.is_text_iff]
  rcases member with rfl | rfl | rfl
  · exact ⟨"a", rfl⟩
  · exact ⟨"b", rfl⟩
  · exact ⟨"c", rfl⟩

def tree : FileTree where
  files := [([upper, lower], [120]), ([beside], [])]
  distinct := by decide
  texts := by
    have inside : ∀ file ∈ [([upper, lower], ([120] : Bytes)), ([beside], [])],
        ∀ name ∈ file.1, name ∈ [upper, lower, beside] := by decide
    exact fun file member name named => are_texts name (inside file member name named)
  below_root := by decide
  apart := by decide

def system : FileSystem where
  objects := [([top], .directory), ([top, upper], .directory), ([top, upper, lower], .file [120]),
    ([top, beside], .file [])]
  workingDirectory := []
  distinct := by decide

def table : Zip.Table where
  names := ["c", "a/b"]
  contents entry := .ok (if entry = 0 then [] else [120])

def directory : DirectoryArchive := { system, root := "d" }

/-- The directory under the longest path that leads to it. -/
def paddedDirectory : DirectoryArchive := { system, root := Path.padded "d" 4094 }

theorem located : directory.system.locate directory.root = .ok [top] := by
  have clean : '\x00' ∉ "d".toList := by decide
  have cut : (Path.pieces "d").map Bytes.ofText = [[0x64]] := by decide
  have walked : system.walk FileSystem.linkLimit [] [[0x64]] = .ok [top] := by cbv
  rw [← walked]
  exact FileSystem.locate_from_root rfl (by decide) clean (by decide) cut

theorem located_padded : paddedDirectory.system.locate paddedDirectory.root = .ok [top] :=
  FileSystem.locate_padded located (by decide) (by decide)

theorem holds : system.Holds [top] tree := by
  intro place
  by_cases known : place ∈ [[], [upper], [upper, lower], [beside]]
  · revert place
    decide
  · -- Any other place is on the way to no file, and no object is there.
    have onTheWay : ∀ file ∈ tree.files, ∀ above ∈ file.1.inits,
        above ∈ [[], [upper], [upper, lower], [beside]] := by decide
    have notAbove : ¬∃ file ∈ tree.files, place <+: file.1 := by
      intro leads
      obtain ⟨file, member, leads⟩ := leads
      exact known (onTheWay file member place ((List.mem_inits place file.1).mpr leads))
    simp only [List.mem_cons, List.not_mem_nil, or_false, not_or] at known
    obtain ⟨notRoot, notUpper, notFile, notBeside⟩ := known
    have noFile : tree.files.lookup place = none := by
      simp [tree, notFile, notBeside]
    have nothing : system.objectAt? ([top] ++ place) = none := by
      simp [FileSystem.objectAt?, system, notRoot, notUpper, notFile, notBeside]
    rw [nothing, FileTree.objectAt?, noFile, if_neg (by simp [notRoot, notAbove])]
    rfl

theorem entry_name_below : FileTree.entryName [upper, lower] = "a/b" := by
  rw [FileTree.entryName, List.map_cons, List.map_cons, upper_text, lower_text]
  rfl

theorem entry_name_beside : FileTree.entryName [beside] = "c" := by
  rw [FileTree.entryName, List.map_cons, beside_text]
  rfl

theorem lists : table.Lists tree := by
  constructor
  · have names : (tree.files.map fun file => FileTree.entryName file.1) = ["a/b", "c"] := by
      rw [tree, List.map_cons, List.map_cons, entry_name_below, entry_name_beside, List.map_nil]
    rw [names]
    decide
  · intro entry file member named
    simp only [tree, List.mem_cons, List.not_mem_nil, or_false] at member
    have bound := (List.getElem?_eq_some_iff.mp named).1
    rcases member with rfl | rfl
    · rw [entry_name_below] at named
      rcases entry with _ | _ | entry
      · revert named
        decide
      · rfl
      · simp [table] at bound
    · rw [entry_name_beside] at named
      rcases entry with _ | _ | entry
      · rfl
      · revert named
        decide
      · simp [table] at bound

theorem resolve_beside (archive : DirectoryArchive) :
    archive.resolve "/c" = .ok (Path.push archive.root "c") := by rfl

theorem beside_is_plain : ∀ segment ∈ ["c"], Path.IsPlain segment := by
  intro segment member
  rw [List.mem_singleton.mp member]
  exact ⟨by decide, by decide, by decide⟩

theorem padded_too_long :
    FileSystem.pathLimit < (Path.push paddedDirectory.root "c").utf8ByteSize := by
  have padded : paddedDirectory.root.utf8ByteSize = "d".utf8ByteSize + 4094 :=
    Path.size_padded "d" 4094
  have longer := @Path.size_push paddedDirectory.root "c" (by decide)
  have single : "d".utf8ByteSize = 1 ∧ "c".utf8ByteSize = 1 := by decide
  rw [FileSystem.pathLimit]
  omega

end SampleAgreement

open SampleAgreement in
theorem sample_directory_agrees :
    directory.system.locate directory.root = .ok [top] ∧
      paddedDirectory.system.locate paddedDirectory.root = .ok [top] ∧
      system.Holds [top] tree ∧ table.Lists tree ∧ Path.segments? "/c" = some ["c"] ∧
      (∀ segment ∈ ["c"], Path.IsPlain segment) ∧
      ∃ zip, (ZipArchive.ofTable "sample.zip" table).value = .ok zip ∧
        directory.toArchive.Agree zip.toArchive "/c" ∧
        paddedDirectory.toArchive.isFile "/c" = .ok false := by
  obtain ⟨zip, opens, agree⟩ :=
    directory_agrees_with_container tree directory [top] located holds "sample.zip" table lists
  obtain ⟨other, otherOpens, limited⟩ :=
    directory_agrees_with_container tree paddedDirectory [top] located_padded holds "sample.zip"
      table lists
  have cut : Path.segments? "/c" = some ["c"] := by decide
  obtain ⟨target, resolved, short, -⟩ := agree "/c" ["c"] cut beside_is_plain
  rw [resolve_beside] at resolved
  obtain rfl := Except.ok.inj resolved
  obtain ⟨longTarget, resolved, -, long⟩ := limited "/c" ["c"] cut beside_is_plain
  rw [resolve_beside] at resolved
  obtain rfl := Except.ok.inj resolved
  exact ⟨located, located_padded, holds, lists, cut, beside_is_plain, zip, opens,
    short (by decide), (long padded_too_long).2.1⟩

open SampleAgreement in
/-- The container has the file `c`, which the directory under the longest path does not find. -/
theorem padded_directory_disagrees :
    paddedDirectory.system.locate paddedDirectory.root = .ok [top] ∧
      paddedDirectory.system.Holds [top] tree ∧ table.Lists tree ∧
      Path.segments? "/c" = some ["c"] ∧ (∀ segment ∈ ["c"], Path.IsPlain segment) ∧
      ∃ zip, (ZipArchive.ofTable "sample.zip" table).value = .ok zip ∧
        paddedDirectory.toArchive.isFile "/c" = .ok false ∧
        zip.toArchive.isFile "/c" = .ok true ∧
        ¬paddedDirectory.toArchive.Agree zip.toArchive "/c" := by
  have cut : Path.segments? "/c" = some ["c"] := by decide
  obtain ⟨error, lost⟩ := FileSystem.locate_too_long padded_too_long
  have missed : paddedDirectory.toArchive.isFile "/c" = .ok false :=
    (DirectoryArchive.answers_of_lost (resolve_beside paddedDirectory) lost).2.1
  let zip : ZipArchive :=
    { sourceName := "sample.zip", table, index := ZipArchive.indexOf table.names }
  have shown : zip.toArchive.Shows tree "/c" ["c"] := ZipArchive.shows_tree rfl lists cut
  have held : tree.fileAt? ["c"] = some [] := by
    refine FileTree.file_at_eq_some.mpr ⟨[beside], ?_, by decide⟩
    rw [List.map_cons, beside_text, List.map_nil]
  have found : zip.toArchive.isFile "/c" = .ok true := by
    rw [shown.is_file, held]
    rfl
  refine ⟨located_padded, holds, lists, cut, beside_is_plain, zip,
    ZipArchive.of_table_value "sample.zip" table, missed, found, ?_⟩
  intro agree
  obtain ⟨answer, asked, also⟩ := agree.is_file
  rw [missed] at asked
  rw [found] at also
  cases asked
  cases also

end ArchiveBrowser

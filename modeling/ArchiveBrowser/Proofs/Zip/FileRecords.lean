import ArchiveBrowser.Proofs.Zip.Index

/-!
# What a container answers is what its file records say

Every table of entries opens, whatever its names are. Being a file, the entry that is
opened, and the listing of a path are told from the names of the table that are no markers;
the markers only shift the positions of the others.
-/

set_option autoImplicit false

namespace ArchiveBrowser.ZipArchive

def IsLastRecord (names : List String) (path : String) (entry : Nat) : Prop :=
  Carries names path entry ∧ ∀ later, Carries names path later → later ≤ entry

/-- What directly follows `place` in the paths of the files of a table. -/
structure Follow (names : List String) (place listed : List String) : Prop where
  once : listed.Nodup
  complete : ∀ segment, segment ∈ listed ↔
    ∃ name ∈ fileNames names, ∃ whole, Path.segments? ("/" ++ name) = some whole ∧
      place ++ [segment] <+: whole
  /-- The order is that of the first file of the table that goes through each segment. -/
  inOrder : listed.Pairwise fun first second =>
    firstThrough names (place ++ [first]) < firstThrough names (place ++ [second])

theorem child_names_follow (names place : List String) :
    Follow names place ((indexOf names).childNames place) where
  once := by
    rw [child_names_index]
    exact nodup_erase_dups _
  complete := by
    intro segment
    rw [child_names_index, List.mem_eraseDups, List.mem_filterMap]
    constructor
    · intro listed
      obtain ⟨name, member, follows⟩ := listed
      obtain ⟨file, whole, cut, through⟩ := following_eq_some.mp follows
      exact ⟨name, List.mem_filter.mpr ⟨member, by simp [file]⟩, whole, cut, through⟩
    · intro follows
      obtain ⟨name, member, whole, cut, through⟩ := follows
      obtain ⟨inside, file⟩ := List.mem_filter.mp member
      exact ⟨name, inside, following_eq_some.mpr ⟨by simpa using file, whole, cut, through⟩⟩
  inOrder := by
    simp only [child_names_index, first_through_eq]
    exact erase_dups_in_order _ names

theorem is_file_eq {zip : ZipArchive} {path : String} (absolute : Path.isAbsolute path = true) :
    zip.isFile path = .ok (zip.index.payload? path).isSome := by
  rw [isFile, if_pos absolute]

theorem list_eq {zip : ZipArchive} {path : String} {place : List String}
    (cut : Path.segments? path = some place) :
    zip.list path = .ok (zip.index.childNames place) := by
  rw [list, if_pos (Path.absolute_of_segments cut), Trie.list_eq zip.index cut]

theorem open_file_value {zip : ZipArchive} {path : String}
    (absolute : Path.isAbsolute path = true) :
    (zip.openFile path).value = .ok ((zip.index.payload? path).bind fun entry =>
      (zip.table.contents entry).toOption.map Source.ofBytes) := by
  rw [openFile, contents, if_pos absolute]
  cases zip.index.payload? path with
  | none => rfl
  | some entry =>
      cases decoded : zip.table.contents entry <;>
        simp [Log.Logged.map, Log.Logged.quiet, decoded, Except.map, Except.toOption]

/-- Without its markers a table answers the same, as long as entries are counted among the
files. -/
theorem markers_without_influence (names : List String) (path : String) :
    (indexOf (fileNames names)).payload? path =
        ((indexOf names).payload? path).map (fileRank names) ∧
      (indexOf (fileNames names)).list path = (indexOf names).list path := by
  refine ⟨(payload_index_rank names path).symm, ?_⟩
  cases cut : Path.segments? path with
  | none => rw [Trie.list_of_relative _ cut, Trie.list_of_relative _ cut]
  | some place => rw [Trie.list_eq _ cut, Trie.list_eq _ cut, child_names_index_files]

private theorem file_names_idem (names : List String) :
    fileNames (fileNames names) = fileNames names := by
  simp [fileNames]

/-- Every table of entries opens, and every path that starts with a slash is answered from
the file records of the table alone. -/
theorem index_is_file_records (sourceName : String) (table : Zip.Table) :
    ∃ zip, (ofTable sourceName table).value = .ok zip ∧
      (buildIndex table.names).value = .ok zip.index ∧
      zip.fileCount = (fileNames table.names).toFinset.card ∧
      (∀ path, Path.isAbsolute path = true →
        (∃ answer, zip.isFile path = .ok answer ∧
          (answer = true ↔ ∃ name ∈ fileNames table.names, path = "/" ++ name)) ∧
        (∃ asked, (∀ entry, asked = some entry ↔ IsLastRecord table.names path entry) ∧
          (zip.openFile path).value = .ok (asked.bind fun entry =>
            (table.contents entry).toOption.map Source.ofBytes)) ∧
        ∃ place listed, Path.segments? path = some place ∧ zip.list path = .ok listed ∧
          Follow table.names place listed) ∧
      ∀ bare : Zip.Table, bare.names = fileNames table.names →
        ∃ less, (ofTable sourceName bare).value = .ok less ∧ less.fileCount = zip.fileCount ∧
          ∀ path, less.isFile path = zip.isFile path ∧ less.list path = zip.list path ∧
            less.index.payload? path =
              (zip.index.payload? path).map (fileRank table.names) := by
  refine ⟨_, of_table_value sourceName table, build_index_value table.names,
    payload_count_index table.names, ?_, ?_⟩
  · intro path absolute
    refine ⟨⟨_, is_file_eq absolute, payload_index_is_some table.names path⟩,
      ⟨_, payload_index_iff table.names path, open_file_value absolute⟩, ?_⟩
    obtain ⟨place, cut⟩ := Path.segments_of_absolute absolute
    exact ⟨place, _, cut, list_eq cut, child_names_follow table.names place⟩
  · intro bare same
    refine ⟨_, of_table_value sourceName bare, ?_, ?_⟩
    · rw [fileCount, fileCount]
      simp only [same]
      rw [payload_count_index, payload_count_index, file_names_idem]
    · intro path
      obtain ⟨ranked, listed⟩ := markers_without_influence table.names path
      have answered : ((indexOf (fileNames table.names)).payload? path).isSome =
          ((indexOf table.names).payload? path).isSome := by
        rw [ranked, Option.isSome_map]
      refine ⟨?_, ?_, ?_⟩
      · simp only [same, isFile, answered]
      · simp only [same, list, listed]
      · rw [same]
        exact ranked

def sampleTable : Zip.Table :=
  { names := ["a/b", "d/", "a", "a/b"], contents := fun entry => .ok [UInt8.ofNat entry] }

def sampleFiles : Zip.Table :=
  { names := ["a/b", "a", "a/b"], contents := fun entry => .ok [UInt8.ofNat entry] }

theorem sample_table_answers :
    Path.isAbsolute "/a/b" = true ∧ sampleFiles.names = fileNames sampleTable.names ∧
      ∃ zip less, (ofTable "sample.zip" sampleTable).value = .ok zip ∧
        (zip.openFile "/a/b").value = .ok (some (Source.ofBytes [3])) ∧
        (ofTable "sample.zip" sampleFiles).value = .ok less ∧
        less.list "/a" = zip.list "/a" := by
  have absolute : Path.isAbsolute "/a/b" = true := by decide
  have files : sampleFiles.names = fileNames sampleTable.names := by decide
  obtain ⟨zip, opens, -, -, answers, unmarked⟩ :=
    index_is_file_records "sample.zip" sampleTable
  obtain ⟨asked, last, opened⟩ := (answers "/a/b" absolute).2.1
  have isLast : IsLastRecord sampleTable.names "/a/b" 3 := by
    refine ⟨⟨"a/b", rfl, by decide, rfl⟩, ?_⟩
    intro later carries
    exact Nat.le_of_lt_succ (lt_length_of_carries carries)
  rw [(last 3).mpr isLast] at opened
  obtain ⟨less, lessOpens, -, same⟩ := unmarked sampleFiles files
  exact ⟨absolute, files, zip, less, opens, opened, lessOpens, (same "/a").2.1⟩

end ArchiveBrowser.ZipArchive

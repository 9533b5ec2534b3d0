import ArchiveBrowser.Proofs.Zip.FileRecords

/-!
# The root of a container

The path of the root is a slash with nothing behind it, and so the root is what an entry with the
empty name would be. Such a name marks no directory, and it is the only one that gives the root a
payload. Without it the root is a directory, and the files are those below it.
-/

set_option autoImplicit false

namespace ArchiveBrowser.ZipArchive

structure RootIsDirectory (zip : ZipArchive) : Prop where
  no_payload : zip.index.root.payload = none
  no_file : zip.isFile "/" = .ok false
  not_opened : (zip.openFile "/").value = .ok none
  files_below : zip.fileCount = zip.index.children.payloadCount

/-- The last entry with the empty name. -/
def IsLastNameless (names : List String) (entry : Nat) : Prop :=
  names[entry]? = some "" ∧ ∀ later : Nat, names[later]? = some "" → later ≤ entry

variable {names : List String}

theorem root_path_iff {name : String} : "/" = "/" ++ name ↔ name = "" := by
  constructor
  · intro same
    exact entry_path_injective (same.symm.trans String.append_empty.symm)
  · rintro rfl
    rfl

theorem carries_root {entry : Nat} : Carries names "/" entry ↔ names[entry]? = some "" := by
  constructor
  · rintro ⟨name, found, -, same⟩
    rwa [root_path_iff.mp same] at found
  · intro found
    exact ⟨"", found, rfl, rfl⟩

theorem root_payload_iff {entry : Nat} :
    (indexOf names).payload = some entry ↔ IsLastNameless names entry := by
  have last := payload_index_iff names "/" entry
  simp only [carries_root] at last
  exact last

theorem nameless_is_file : "" ∈ fileNames names ↔ "" ∈ names := by
  have noMarker : Path.endsWithSeparator "" = false := by decide
  simp [fileNames, noMarker]

theorem root_payload_is_some : (indexOf names).payload.isSome = true ↔ "" ∈ names := by
  have file := payload_index_is_some names "/"
  simp only [root_path_iff, exists_eq_right, nameless_is_file] at file
  exact file

/-- Below the root there is a payload for each name of a file but the empty one. -/
theorem payload_count_below_root :
    (indexOf names).children.payloadCount = ((fileNames names).toFinset.erase "").card := by
  have counted := payload_count_index names
  unfold Trie.payloadCount at counted
  by_cases nameless : "" ∈ names
  · have member : "" ∈ (fileNames names).toFinset :=
      List.mem_toFinset.mpr (nameless_is_file.mpr nameless)
    have erased := Finset.card_erase_add_one member
    rw [if_pos (root_payload_is_some.mpr nameless)] at counted
    omega
  · have absent : "" ∉ (fileNames names).toFinset := by
      rwa [List.mem_toFinset, nameless_is_file]
    rw [if_neg (mt root_payload_is_some.mp nameless)] at counted
    rw [Finset.erase_eq_of_notMem absent]
    omega

theorem file_count_root (zip : ZipArchive) :
    zip.fileCount =
      (if zip.index.payload.isSome then 1 else 0) + zip.index.children.payloadCount := rfl

theorem is_file_root (zip : ZipArchive) : zip.isFile "/" = .ok zip.index.payload.isSome := rfl

theorem open_file_root (zip : ZipArchive) :
    (zip.openFile "/").value = .ok (zip.index.payload.bind fun entry =>
      (zip.table.contents entry).toOption.map Source.ofBytes) :=
  open_file_value (by decide)

theorem root_is_directory_of_no_payload {zip : ZipArchive} (none : zip.index.payload = none) :
    zip.RootIsDirectory where
  no_payload := none
  no_file := by
    rw [is_file_root, none]
    rfl
  not_opened := by
    rw [open_file_root, none]
    rfl
  files_below := by
    rw [file_count_root, none]
    simp

/-- The root is a directory just if no entry has the empty name. If there are entries without a
name, the last of them is what is at the root, and it counts as one more file. -/
theorem root_is_directory_iff (sourceName : String) (table : Zip.Table) :
    ∃ zip, (ofTable sourceName table).value = .ok zip ∧
      (zip.RootIsDirectory ↔ "" ∉ table.names) ∧
      zip.index.children.payloadCount = ((fileNames table.names).toFinset.erase "").card ∧
      zip.fileCount = zip.index.children.payloadCount + (if "" ∈ table.names then 1 else 0) ∧
      zip.isFile "/" = .ok (decide ("" ∈ table.names)) ∧
      (zip.openFile "/").value = .ok (zip.index.root.payload.bind fun entry =>
        (table.contents entry).toOption.map Source.ofBytes) ∧
      ∀ entry, zip.index.root.payload = some entry ↔ IsLastNameless table.names entry := by
  have answer : (indexOf table.names).payload.isSome = decide ("" ∈ table.names) := by
    rw [Bool.eq_iff_iff, root_payload_is_some, decide_eq_true_eq]
  refine ⟨_, of_table_value sourceName table, ?_, payload_count_below_root, ?_, ?_,
    open_file_root _, ?_⟩
  · constructor
    · intro directory nameless
      have payload := root_payload_is_some.mpr nameless
      rw [show (indexOf table.names).payload = none from directory.no_payload] at payload
      cases payload
    · intro named
      apply root_is_directory_of_no_payload
      rwa [← Option.not_isSome_iff_eq_none, root_payload_is_some]
  · rw [file_count_root, answer, Nat.add_comm]
    simp
  · rw [is_file_root, answer]
  · intro entry
    exact root_payload_iff

namespace SampleRoot

def entries : Zip.Table :=
  { names := ["a/b", "", "d/", ""], contents := fun entry => .ok [UInt8.ofNat entry] }

/-- What a directory record and the header in front of the data say alike: one byte is stored. -/
def entryFields : Bytes :=
  [20, 0, 0, 0, 0, 0, 0, 0, 0x21, 0, 0x83, 0x16, 0xdc, 0x8c, 1, 0, 0, 0, 1, 0, 0, 0, 0, 0, 0, 0]

/-- A container whose one entry has a name of no bytes. -/
def container : Bytes :=
  Zip.Signature.localHeader.bytes ++ entryFields ++ [0x78] ++
    Zip.Signature.directoryRecord.bytes ++ [20, 3] ++ entryFields ++
      [0, 0, 0, 0, 0, 0, 0, 0, 0x80, 1, 0, 0, 0, 0] ++
    Zip.Signature.endRecord.bytes ++ [0, 0, 0, 0, 1, 0, 1, 0, 46, 0, 0, 0, 31, 0, 0, 0, 0, 0]

theorem container_read :
    ∃ table, Zip.Table.read container.toArray = .ok table ∧ table.names = [""] ∧
      table.contents 0 = .ok [0x78] := by
  have read : (Zip.Table.read container.toArray).toOption.map
      (fun table => (table.names, (table.contents 0).toOption)) = some ([""], some [0x78]) := by
    decide +kernel
  cases decoded : Zip.Table.read container.toArray with
  | error flaw =>
      rw [decoded] at read
      cases read
  | ok table =>
      rw [decoded] at read
      obtain ⟨names, contents⟩ := Prod.mk.inj (Option.some.inj read)
      refine ⟨table, rfl, names, ?_⟩
      cases held : table.contents 0 with
      | error flaw =>
          rw [held] at contents
          cases contents
      | ok bytes =>
          rw [held] at contents
          rw [Option.some.inj contents]

end SampleRoot

open SampleRoot in
theorem sample_root :
    ∃ zip, (ofTable "sample.zip" entries).value = .ok zip ∧ IsLastNameless entries.names 3 ∧
      zip.index.root.payload = some 3 ∧ zip.isFile "/" = .ok true ∧
      (zip.openFile "/").value = .ok (some (.ofBytes [3])) ∧ zip.fileCount = 2 ∧
      zip.index.children.payloadCount = 1 := by
  obtain ⟨zip, opens, -, below, counted, file, opened, last⟩ :=
    root_is_directory_iff "sample.zip" entries
  have isLast : IsLastNameless entries.names 3 := by
    refine ⟨rfl, ?_⟩
    intro later found
    exact Nat.le_of_lt_succ (List.getElem?_eq_some_iff.mp found).1
  have payload := (last 3).mpr isLast
  rw [payload] at opened
  rw [below] at counted
  exact ⟨zip, opens, isLast, payload, file, opened, counted, below⟩

open SampleRoot in
/-- A container with an entry without a name opens, and its root is a file. -/
theorem nameless_entry_at_root :
    ∃ zip, (ofBytes "a.zip" container).value = .ok zip ∧ ¬zip.RootIsDirectory ∧
      zip.index.root.payload = some 0 ∧ zip.isFile "/" = .ok true ∧
      (zip.openFile "/").value = .ok (some (.ofBytes [0x78])) ∧
      zip.fileCount = 1 ∧ zip.list "/" = .ok [] := by
  obtain ⟨table, read, names, contents⟩ := container_read
  have opens : (ofBytes "a.zip" container).value =
      .ok { sourceName := "a.zip", table, index := indexOf [""] } := by
    rw [ofBytes, read, ← names]
    exact of_table_value "a.zip" table
  refine ⟨_, opens, ?_, rfl, rfl, ?_, rfl, rfl⟩
  · intro directory
    cases directory.no_payload
  · rw [open_file_root]
    change Except.ok ((table.contents 0).toOption.map Source.ofBytes) = _
    rw [contents]
    rfl

end ArchiveBrowser.ZipArchive

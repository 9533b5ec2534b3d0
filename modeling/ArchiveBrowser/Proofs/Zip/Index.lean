import ArchiveBrowser.Archive.Zip
import ArchiveBrowser.Proofs.Trie.FiniteMap
import ArchiveBrowser.Proofs.Trie.Shape

/-!
# The index of a table of entries

The index of a table is the trie of a history: one write for each name that is no marker
of a directory, in the order of the table. Names are thereby told from the table alone, and
so is the position of the entry behind a path, which is the last that carries its name.
-/

set_option autoImplicit false

namespace ArchiveBrowser.ZipArchive

open Trie (Operation)

/-- The names of a table that do not only mark directories. -/
def fileNames (names : List String) : List String :=
  names.filter fun name => !Path.endsWithSeparator name

def write? (record : String × Nat) : Option (Operation Nat) :=
  if Path.endsWithSeparator record.1 then none else some (.put ("/" ++ record.1) record.2)

def writes (names : List String) : List (Operation Nat) :=
  names.zipIdx.filterMap write?

/-- The index that a table should have. -/
def indexOf (names : List String) : Trie Nat :=
  Trie.run (writes names)

theorem segments_of_entry (name : String) :
    ∃ segments, Path.segments? ("/" ++ name) = some segments := by
  rw [Path.segments?, Path.after_root_eq_some.mpr rfl]
  exact ⟨_, rfl⟩

theorem entry_path_injective {name other : String} (same : "/" ++ name = "/" ++ other) :
    name = other := by
  have letters := congrArg String.toList same
  rw [String.toList_append, String.toList_append] at letters
  exact String.toList_inj.mp (List.append_cancel_left letters)

private theorem put_entry (index : Trie Nat) (name : String) (entry : Nat) :
    ∃ previous, index.put ("/" ++ name) entry =
      .ok (previous, (index.perform (.put ("/" ++ name) entry)).2) := by
  obtain ⟨segments, cut⟩ := segments_of_entry name
  simp [Trie.perform, Trie.put, Trie.insert, cut]

theorem index_from_value (index : Trie Nat) (entry : Nat) (names : List String) :
    (indexFrom index entry names).value =
      .ok (((names.zipIdx entry).filterMap write?).foldl
        (fun trie operation => (trie.perform operation).2) index) := by
  induction names generalizing index entry with
  | nil => rfl
  | cons name rest ih =>
      rw [List.zipIdx_cons, indexFrom]
      by_cases marker : Path.endsWithSeparator name
      · rw [if_pos marker, ih]
        simp [write?, marker]
      · obtain ⟨previous, put⟩ := put_entry index name entry
        rw [if_neg marker]
        simp only [put]
        rw [ih]
        simp [write?, marker]

theorem build_index_value (names : List String) : (buildIndex names).value = .ok (indexOf names) :=
  index_from_value .empty 0 names

theorem of_table_value (sourceName : String) (table : Zip.Table) :
    (ofTable sourceName table).value = .ok { sourceName, table, index := indexOf table.names } := by
  rw [ofTable]
  simp only [build_index_value]

theorem file_names_append (names : List String) (name : String) :
    fileNames (names ++ [name]) =
      if Path.endsWithSeparator name then fileNames names else fileNames names ++ [name] := by
  by_cases marker : Path.endsWithSeparator name <;> simp [fileNames, marker]

theorem index_append_marker (names : List String) {name : String}
    (marker : Path.endsWithSeparator name = true) : indexOf (names ++ [name]) = indexOf names := by
  simp [indexOf, writes, List.zipIdx_append, write?, marker]

theorem index_append_file (names : List String) {name : String}
    (file : Path.endsWithSeparator name = false) :
    indexOf (names ++ [name]) =
      ((indexOf names).perform (.put ("/" ++ name) names.length)).2 := by
  rw [indexOf, indexOf, ← Trie.run_append]
  simp [writes, List.zipIdx_append, write?, file]

/-- Tables grow by a marker, which leaves the index alone, or by a file, which is written. -/
theorem table_induction {motive : List String → Prop} (empty : motive [])
    (marker : ∀ names name, Path.endsWithSeparator name = true → motive names →
      motive (names ++ [name]))
    (file : ∀ names name, Path.endsWithSeparator name = false → motive names →
      motive (names ++ [name])) (names : List String) : motive names := by
  induction names using List.reverseRecOn with
  | nil => exact empty
  | append_singleton names name ih =>
      cases kind : Path.endsWithSeparator name with
      | true => exact marker names name kind ih
      | false => exact file names name kind ih

/-- What a table inserts are the paths of its files. -/
theorem mem_inserted_writes {names : List String} {whole : List String} :
    whole ∈ (writes names).filterMap Trie.Operation.inserted? ↔
      ∃ name ∈ fileNames names, Path.segments? ("/" ++ name) = some whole := by
  constructor
  · intro inserted
    obtain ⟨operation, member, inserts⟩ := List.mem_filterMap.mp inserted
    obtain ⟨⟨name, entry⟩, record, written⟩ := List.mem_filterMap.mp member
    have inside : name ∈ names := List.mem_of_getElem? (List.mem_zipIdx_iff_getElem?.mp record)
    simp only [write?] at written
    split at written
    · cases written
    · rename_i file
      cases written
      exact ⟨name, List.mem_filter.mpr ⟨inside, by simpa using file⟩, inserts⟩
  · intro named
    obtain ⟨name, member, cut⟩ := named
    obtain ⟨inside, file⟩ := List.mem_filter.mp member
    obtain ⟨entry, found⟩ := List.mem_iff_getElem?.mp inside
    have notMarker : Path.endsWithSeparator name = false := by simpa using file
    refine List.mem_filterMap.mpr ⟨.put ("/" ++ name) entry, ?_, cut⟩
    refine List.mem_filterMap.mpr ⟨(name, entry), List.mem_zipIdx_iff_getElem?.mpr found, ?_⟩
    simp [write?, notMarker]

/-! ## The entry behind a path -/

theorem payload_append_file (names : List String) {name : String}
    (file : Path.endsWithSeparator name = false) (path : String) :
    (indexOf (names ++ [name])).payload? path =
      if path = "/" ++ name then some names.length else (indexOf names).payload? path := by
  obtain ⟨segments, cut⟩ := segments_of_entry name
  have here : Path.segments? (Operation.put ("/" ++ name) names.length).path = some segments := cut
  rw [index_append_file names file, Trie.payload_after _ here]
  by_cases here : path = "/" ++ name
  · subst here
    simp [Operation.path, Operation.inserted?, Operation.change, cut]
  · have different : "/" ++ name ≠ path := Ne.symm here
    simp [Operation.path, here, different]

theorem payload_index_nil (path : String) : (indexOf []).payload? path = none :=
  Trie.payload_run [] path

theorem payload_index_is_some (names : List String) (path : String) :
    ((indexOf names).payload? path).isSome = true ↔
      ∃ name ∈ fileNames names, path = "/" ++ name := by
  induction names using table_induction with
  | empty => simp [payload_index_nil, fileNames]
  | marker names name marker ih =>
      rw [file_names_append, index_append_marker names marker, if_pos marker]
      exact ih
  | file names name file ih =>
      rw [file_names_append, payload_append_file names file, file]
      by_cases here : path = "/" ++ name
      · simp [here]
      · rw [if_neg here, ih]
        simp [here]

def Carries (names : List String) (path : String) (entry : Nat) : Prop :=
  ∃ name, names[entry]? = some name ∧ Path.endsWithSeparator name = false ∧ path = "/" ++ name

theorem carries_append (names : List String) (name path : String) (entry : Nat) :
    Carries (names ++ [name]) path entry ↔
      Carries names path entry ∨ (entry = names.length ∧
        Path.endsWithSeparator name = false ∧ path = "/" ++ name) := by
  unfold Carries
  rcases Nat.lt_trichotomy entry names.length with before | rfl | behind
  · rw [List.getElem?_append_left before]
    simp [Nat.ne_of_lt before]
  · simp
  · have outside : names[entry]? = none := List.getElem?_eq_none (by omega)
    have stillOutside : (names ++ [name])[entry]? = none := List.getElem?_eq_none (by simp; omega)
    simp [outside, stillOutside, Nat.ne_of_gt behind]

theorem lt_length_of_carries {names : List String} {path : String} {entry : Nat}
    (carries : Carries names path entry) : entry < names.length := by
  obtain ⟨name, found, -⟩ := carries
  exact (List.getElem?_eq_some_iff.mp found).1

/-- The entry behind a path is the last that carries its name. -/
theorem payload_index_iff (names : List String) (path : String) (entry : Nat) :
    (indexOf names).payload? path = some entry ↔
      Carries names path entry ∧ ∀ later, Carries names path later → later ≤ entry := by
  induction names using table_induction with
  | empty => simp [payload_index_nil, Carries]
  | marker names name marker ih =>
      simp only [carries_append]
      rw [index_append_marker names marker, ih]
      simp [marker]
  | file names name file ih =>
      simp only [carries_append]
      rw [payload_append_file names file]
      by_cases here : path = "/" ++ name
      · rw [if_pos here, Option.some.injEq]
        constructor
        · intro same
          subst same
          refine ⟨Or.inr ⟨rfl, file, here⟩, ?_⟩
          intro later found
          rcases found with carries | appended
          · exact Nat.le_of_lt (lt_length_of_carries carries)
          · exact Nat.le_of_eq appended.1
        · intro found
          rcases found with ⟨carries | appended, last⟩
          · -- An earlier entry is not the last one: the new file carries the same name.
            have before := lt_length_of_carries carries
            have behind := last names.length (Or.inr ⟨rfl, file, here⟩)
            omega
          · exact appended.1.symm
      · rw [if_neg here, ih]
        simp [here]

def fileRank (names : List String) (entry : Nat) : Nat :=
  (fileNames (names.take entry)).length

/-- What comes behind an entry does not change how many files precede it. -/
private theorem rank_append (names : List String) (name path : String) :
    ((indexOf names).payload? path).map (fileRank (names ++ [name])) =
      ((indexOf names).payload? path).map (fileRank names) := by
  cases found : (indexOf names).payload? path with
  | none => rfl
  | some entry =>
      have inside := lt_length_of_carries ((payload_index_iff names path entry).mp found).1
      rw [Option.map_some, Option.map_some, fileRank, fileRank,
        List.take_append_of_le_length (Nat.le_of_lt inside)]

/-- Markers only shift the entries: a path leads to the same one of the files without them. -/
theorem payload_index_rank (names : List String) (path : String) :
    ((indexOf names).payload? path).map (fileRank names) =
      (indexOf (fileNames names)).payload? path := by
  induction names using table_induction with
  | empty => rw [show fileNames [] = [] from rfl, payload_index_nil, Option.map_none]
  | marker names name marker ih =>
      rw [file_names_append, if_pos marker, index_append_marker names marker, rank_append, ih]
  | file names name file ih =>
      rw [file_names_append, if_neg (by simp [file]), payload_append_file names file,
        payload_append_file (fileNames names) file]
      by_cases here : path = "/" ++ name
      · simp [here, fileRank]
      · rw [if_neg here, if_neg here, rank_append, ih]

/-! ## Listings -/

def following? (place : List String) (name : String) : Option String :=
  if Path.endsWithSeparator name then none
  else (Path.segments? ("/" ++ name)).bind (Trie.nextSegment? · place)

theorem following_eq_some {place : List String} {name segment : String} :
    following? place name = some segment ↔
      Path.endsWithSeparator name = false ∧
        ∃ whole, Path.segments? ("/" ++ name) = some whole ∧ place ++ [segment] <+: whole := by
  unfold following?
  cases Path.endsWithSeparator name <;>
    simp [Option.bind_eq_some_iff, Trie.next_segment_eq_some]

theorem child_names_index (names : List String) (place : List String) :
    (indexOf names).childNames place = (names.filterMap (following? place)).eraseDups := by
  rw [indexOf, Trie.child_names_run, writes, List.filterMap_filterMap]
  have same : (fun record : String × Nat => (write? record).bind fun operation =>
      operation.inserted?.bind (Trie.nextSegment? · place)) =
        following? place ∘ Prod.fst := by
    funext record
    unfold write? following?
    by_cases marker : Path.endsWithSeparator record.1 <;> simp [marker, Operation.inserted?]
  rw [same, ← List.filterMap_map, List.zipIdx_map_fst]

theorem child_names_index_files (names : List String) (place : List String) :
    (indexOf (fileNames names)).childNames place = (indexOf names).childNames place := by
  rw [child_names_index, child_names_index, fileNames, List.filterMap_filter]
  congr 2
  funext name
  unfold following?
  by_cases marker : Path.endsWithSeparator name <;> simp [marker]

/-- The number of entries before the first file whose path goes through `place`. -/
def firstThrough (names : List String) (place : List String) : Nat :=
  names.findIdx fun name =>
    !Path.endsWithSeparator name && (Path.segments? ("/" ++ name)).any place.isPrefixOf

theorem first_through_eq (names : List String) (place : List String) (segment : String) :
    firstThrough names (place ++ [segment]) = firstYield (following? place) names segment := by
  unfold firstThrough firstYield
  congr 1
  funext name
  rw [Bool.eq_iff_iff, beq_iff_eq, following_eq_some]
  obtain ⟨whole, cut⟩ := segments_of_entry name
  simp [cut]

/-! ## Counting -/

theorem payload_count_index (names : List String) :
    (indexOf names).payloadCount = (fileNames names).toFinset.card := by
  have counted := Trie.encard_payload_paths (writes names)
  have paths : {path | ((Trie.run (writes names)).payload? path).isSome = true} =
      ↑((fileNames names).toFinset.image ("/" ++ ·)) := by
    ext path
    have found := payload_index_is_some names path
    simp only [Set.mem_ofPred_eq, Finset.coe_image, Set.mem_image, Finset.mem_coe,
      List.mem_toFinset]
    rw [← indexOf, found]
    simp only [eq_comm]
  have injective : Function.Injective fun name : String => "/" ++ name :=
    fun _ _ same => entry_path_injective same
  rw [paths, Set.encard_coe_eq_coe_finsetCard, Finset.card_image_of_injective _ injective]
    at counted
  exact (Nat.cast_inj.mp counted).symm

end ArchiveBrowser.ZipArchive

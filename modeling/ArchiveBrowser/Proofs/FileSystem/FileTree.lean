import ArchiveBrowser.Proofs.FileSystem.Names
import ArchiveBrowser.Proofs.FileSystem.Walk

/-!
# Trees of files

A tree of files is given by the names that lead to each file, which are texts; the directories are
what these names need. `Holds` says that a file system has nothing but such a tree below a place.
A path that goes on from there is then followed as its names say: to what the tree has under them,
and nowhere if it has nothing.
-/

set_option autoImplicit false

namespace ArchiveBrowser

/-- A finite set of files by the names that lead to them, none of which is below another. The
names are texts. -/
structure FileTree where
  files : List (Location × Bytes)
  distinct : (files.map Prod.fst).Nodup
  below_root : ∀ file ∈ files, file.1 ≠ []
  texts : ∀ file ∈ files, FileName.AreTexts file.1
  apart : ∀ upper ∈ files, ∀ lower ∈ files, upper.1 <+: lower.1 → upper.1 = lower.1

namespace FileTree

/-- What the tree has at a place: a file, or a directory that the way to a file needs. -/
def objectAt? (tree : FileTree) (place : Location) : Option Object :=
  ((tree.files.lookup place).map Object.file).or
    (if place = [] ∨ ∃ file ∈ tree.files, place <+: file.1 then some .directory else none)

theorem object_at_file {tree : FileTree} {place : Location} {bytes : Bytes} :
    tree.objectAt? place = some (.file bytes) ↔ (place, bytes) ∈ tree.files := by
  rw [← lookup_eq_some_iff_mem tree.distinct, objectAt?]
  cases tree.files.lookup place with
  | none =>
      rw [Option.map_none, Option.none_or]
      split <;> simp [Object.directory]
  | some held => simp

/-- A tree has files and directories that can be used. -/
theorem object_at_cases {tree : FileTree} {place : Location} {object : Object}
    (held : tree.objectAt? place = some object) :
    (∃ bytes, object = .file bytes) ∨ object = .directory := by
  rw [objectAt?] at held
  cases found : tree.files.lookup place with
  | none =>
      rw [found, Option.map_none, Option.none_or] at held
      split at held
      · exact .inr (Option.some.inj held).symm
      · cases held
  | some bytes =>
      rw [found, Option.map_some, Option.some_or] at held
      exact .inl ⟨bytes, (Option.some.inj held).symm⟩

theorem object_at_is_some {tree : FileTree} {place : Location} :
    (tree.objectAt? place).isSome = true ↔
      place = [] ∨ ∃ file ∈ tree.files, place <+: file.1 := by
  rw [objectAt?]
  cases found : tree.files.lookup place with
  | none => simp
  | some bytes =>
      have member := (lookup_eq_some_iff_mem tree.distinct place bytes).mp found
      have there : ∃ file ∈ tree.files, place <+: file.1 := ⟨_, member, List.prefix_refl place⟩
      simp only [Option.map_some, Option.some_or, Option.isSome_some, true_iff]
      exact Or.inr there

theorem texts_of_there {tree : FileTree} {place : Location}
    (there : (tree.objectAt? place).isSome = true) : FileName.AreTexts place := by
  intro name member
  rcases object_at_is_some.mp there with rfl | ⟨file, inside, above⟩
  · cases member
  · exact tree.texts file inside name (above.subset member)

theorem directory_above {tree : FileTree} {place rest : Location} (more : rest ≠ [])
    (there : (tree.objectAt? (place ++ rest)).isSome = true) :
    tree.objectAt? place = some .directory := by
  have through : ∃ file ∈ tree.files, place ++ rest <+: file.1 := by
    rcases object_at_is_some.mp there with empty | through
    · exact absurd (List.append_eq_nil_iff.mp empty).2 more
    · exact through
  obtain ⟨file, member, leads⟩ := through
  have above : place <+: file.1 := (List.prefix_append place rest).trans leads
  -- A file at the place would be above the one below it.
  have noFile : tree.files.lookup place = none := by
    rw [Option.eq_none_iff_forall_ne_some]
    intro bytes found
    have upper := (lookup_eq_some_iff_mem tree.distinct place bytes).mp found
    have same : place = file.1 := tree.apart _ upper file member above
    have longer := leads.length_le
    rw [← same, List.length_append] at longer
    have := List.length_pos_of_ne_nil more
    omega
  rw [objectAt?, noFile, Option.map_none, Option.none_or,
    if_pos (Or.inr ⟨file, member, above⟩)]

end FileTree

namespace FileTree

def fileAt? (tree : FileTree) (texts : List String) : Option Bytes :=
  (tree.files.map fun file => (file.1.map FileName.text, file.2)).lookup texts

theorem file_at_eq_some {tree : FileTree} {texts : List String} {bytes : Bytes} :
    tree.fileAt? texts = some bytes ↔
      ∃ place, texts = place.map FileName.text ∧ (place, bytes) ∈ tree.files := by
  have keys : (tree.files.map fun file => (file.1.map FileName.text, file.2)).map Prod.fst =
      (tree.files.map Prod.fst).map (List.map FileName.text) := by
    rw [List.map_map, List.map_map]
    rfl
  have distinct : ((tree.files.map Prod.fst).map (List.map FileName.text)).Nodup := by
    apply tree.distinct.map_on
    intro place member other alsoMember same
    obtain ⟨file, inside, rfl⟩ := List.mem_map.mp member
    obtain ⟨otherFile, alsoInside, rfl⟩ := List.mem_map.mp alsoMember
    exact FileName.texts_injective (tree.texts file inside) (tree.texts otherFile alsoInside) same
  rw [← keys] at distinct
  rw [fileAt?, lookup_eq_some_iff_mem distinct, List.mem_map]
  constructor
  · intro member
    obtain ⟨⟨place, held⟩, member, same⟩ := member
    cases same
    exact ⟨place, rfl, member⟩
  · intro member
    obtain ⟨place, same, member⟩ := member
    exact ⟨(place, bytes), member, by rw [same]⟩

theorem file_at_texts (tree : FileTree) {place : Location} (texts : FileName.AreTexts place)
    (bytes : Bytes) : tree.fileAt? (place.map FileName.text) = some bytes ↔
      tree.objectAt? place = some (.file bytes) := by
  rw [file_at_eq_some, object_at_file]
  constructor
  · intro member
    obtain ⟨other, same, member⟩ := member
    rwa [FileName.texts_injective texts (tree.texts _ member) same]
  · intro member
    exact ⟨place, rfl, member⟩

def Follows (tree : FileTree) (texts : List String) (text : String) : Prop :=
  ∃ file ∈ tree.files, texts ++ [text] <+: file.1.map FileName.text

theorem follows_iff {tree : FileTree} {texts : List String} {text : String} :
    tree.Follows texts text ↔ ∃ place name, texts = place.map FileName.text ∧
      text = name.text ∧ (tree.objectAt? (place ++ [name])).isSome = true := by
  constructor
  · intro follows
    obtain ⟨file, member, leads⟩ := follows
    obtain ⟨whole, above, same⟩ := List.prefix_map_iff.mp leads
    obtain ⟨place, final, split, here, last⟩ := List.map_eq_append_iff.mp same.symm
    obtain ⟨name, rfl, named⟩ := List.map_eq_singleton_iff.mp last
    refine ⟨place, name, here.symm, named.symm, object_at_is_some.mpr (Or.inr ?_)⟩
    exact ⟨file, member, split ▸ above⟩
  · intro there
    obtain ⟨place, name, rfl, rfl, there⟩ := there
    rcases object_at_is_some.mp there with empty | through
    · simp at empty
    · obtain ⟨file, member, above⟩ := through
      refine ⟨file, member, List.prefix_map_iff.mpr ⟨_, above, ?_⟩⟩
      rw [List.map_append, List.map_singleton]

end FileTree

namespace FileSystem

/-- The file system has just the tree at and below a place. -/
def Holds (system : FileSystem) (base : Location) (tree : FileTree) : Prop :=
  ∀ place, system.objectAt? (base ++ place) = tree.objectAt? place

variable {system : FileSystem} {base : Location} {tree : FileTree}

theorem walk_held (holds : system.Holds base tree) {here : Location} {name : FileName}
    (there : (tree.objectAt? (here ++ [name])).isSome = true) (links : Nat) (rest : List Bytes) :
    system.walk links (base ++ here) (name.bytes :: rest) =
      system.walk links (base ++ (here ++ [name])) rest := by
  obtain ⟨object, held⟩ := Option.isSome_iff_exists.mp there
  have directory := (holds here).trans (FileTree.directory_above (by simp) there)
  have heldHere : system.objectAt? (base ++ here ++ [name]) = some object := by
    rw [List.append_assoc, holds, held]
  rcases FileTree.object_at_cases held with ⟨bytes, rfl⟩ | rfl
  · rw [walk_name (hindrance_of_directory directory _) heldHere nofun nofun, List.append_assoc]
  · rw [walk_name (hindrance_of_directory directory _) heldHere nofun nofun, List.append_assoc]

/-- Names under which the tree has something are followed to it. -/
theorem walk_to (holds : system.Holds base tree) (links : Nat) (here names : Location)
    (there : (tree.objectAt? (here ++ names)).isSome = true) :
    system.walk links (base ++ here) (names.map FileName.bytes) =
      .ok (base ++ (here ++ names)) := by
  induction names generalizing here with
  | nil => rw [List.map_nil, walk, List.append_nil]
  | cons name names ih =>
      rw [List.append_cons] at there
      have first : (tree.objectAt? (here ++ [name])).isSome = true := by
        cases names with
        | nil => rwa [List.append_nil] at there
        | cons next later =>
            rw [FileTree.directory_above (by simp) there]
            rfl
      rw [List.map_cons, walk_held holds first, ih _ there, List.append_assoc here,
        List.singleton_append]

/-- Other pieces lead nowhere. -/
theorem walk_nowhere (holds : system.Holds base tree) (links : Nat) (here : Location)
    (pieces : List Bytes)
    (plain : ∀ piece ∈ pieces, Path.Bytewise.IsPlain piece)
    (there : (tree.objectAt? here).isSome = true)
    (nothing : ∀ names : Location, pieces = names.map FileName.bytes →
      tree.objectAt? (here ++ names) = none) :
    ∃ error, system.walk links (base ++ here) pieces = .error error := by
  induction pieces generalizing here with
  | nil =>
      have absent := nothing [] rfl
      rw [List.append_nil] at absent
      rw [absent] at there
      cases there
  | cons piece rest ih =>
      -- The walk goes on as long as the pieces name something, and ends at the first that does not.
      by_cases present : ∃ name : FileName, piece = name.bytes ∧
          (tree.objectAt? (here ++ [name])).isSome = true
      · obtain ⟨name, rfl, present⟩ := present
        rw [walk_held holds present]
        refine ih (here ++ [name]) (fun other member => plain other (by simp [member])) present ?_
        intro names same
        rw [← List.append_cons]
        exact nothing (name :: names) (by rw [List.map_cons, same])
      · refine walk_no_name (plain piece (by simp)) ?_ links rest
        intro name same
        rw [List.append_assoc, holds, ← Option.not_isSome_iff_eq_none]
        intro held
        exact present ⟨name, same, held⟩

theorem root_there (tree : FileTree) : (tree.objectAt? []).isSome = true :=
  FileTree.object_at_is_some.mpr (Or.inl rfl)

theorem locate_names (holds : system.Holds base tree) {root rest : String} {names : Location}
    (rooted : system.locate root = .ok base) (relative : Path.isAbsolute rest = false)
    (named : Path.pieces rest = names.map FileName.text)
    (there : (tree.objectAt? names).isSome = true)
    (short : (Path.push root rest).utf8ByteSize ≤ pathLimit) :
    system.locate (Path.push root rest) = .ok (base ++ names) := by
  have clean : '\x00' ∉ rest.toList := by
    apply (Path.not_mem_iff_pieces (by decide)).mpr
    intro piece member
    rw [named] at member
    obtain ⟨name, -, same⟩ := List.mem_map.mp member
    exact same ▸ name.clean
  obtain ⟨left, followed⟩ := locate_push rooted relative clean short
  have reached := walk_to holds left [] names there
  rw [List.append_nil, List.nil_append,
    ← FileName.bytes_of_texts (FileTree.texts_of_there there), ← named] at reached
  rw [followed, reached]

theorem locate_nowhere (holds : system.Holds base tree) {root rest : String}
    (rooted : system.locate root = .ok base) (relative : Path.isAbsolute rest = false)
    (plain : ∀ piece ∈ Path.pieces rest, Path.IsPlain piece)
    (nothing : ∀ names : Location, Path.pieces rest = names.map FileName.text →
      tree.objectAt? names = none) :
    ∃ error, system.locate (Path.push root rest) = .error error := by
  obtain ⟨left, followed⟩ := follow_push rooted relative
  have plainBytes : ∀ piece ∈ (Path.pieces rest).map Bytes.ofText,
      Path.Bytewise.IsPlain piece := by
    intro piece member
    obtain ⟨text, inside, rfl⟩ := List.mem_map.mp member
    exact Path.Bytewise.is_plain_of_text (plain text inside)
  have nothingNamed : ∀ names : Location,
      (Path.pieces rest).map Bytes.ofText = names.map FileName.bytes →
        tree.objectAt? ([] ++ names) = none :=
    fun names same => nothing names (FileName.texts_of_bytes same).1
  obtain ⟨failure, lost⟩ :=
    walk_nowhere holds left [] _ plainBytes (root_there tree) nothingNamed
  rw [List.append_nil, ← followed] at lost
  cases located : system.locate (Path.push root rest) with
  | error error => exact ⟨error, rfl⟩
  | ok place =>
      rw [(follow_of_locate located).2.2] at lost
      cases lost

end FileSystem

end ArchiveBrowser

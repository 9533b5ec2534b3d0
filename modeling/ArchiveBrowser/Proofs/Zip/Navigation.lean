import ArchiveBrowser.Command.List
import ArchiveBrowser.Proofs.Path.Child
import ArchiveBrowser.Proofs.Zip.FileRecords
import Mathlib

/-!
# From a listing to the nodes that it lists

The payloads of an index tell its places apart, and so do its nodes, since there is a file
at or below each of them. A path that was put together for a listed name therefore leads to
the node of that name just where it has the segments of that node.
-/

set_option autoImplicit false

namespace ArchiveBrowser

namespace Trie.Node

variable {α : Type}

/-- The node to which the segments lead from this one. -/
def below? (node : Node α) : (segments : List String) → Option (Node α)
  | [] => some node
  | segment :: rest => node.children.node? segment rest

theorem child_eq_below (node : Node α) (name : String) : node.child? name = node.below? [name] :=
  rfl

end Trie.Node

theorem Forest.node_append {α : Type} (forest : Forest α) (segment : String)
    (rest more : List String) :
    forest.node? segment (rest ++ more) = (forest.node? segment rest).bind (·.below? more) := by
  induction forest generalizing segment rest with
  | nil => simp [node?]
  | node name payload children siblings childrenIh siblingsIh =>
      by_cases here : name = segment
      · subst here
        cases rest with
        | nil => cases more <;> simp [node?, Trie.Node.below?]
        | cons next later => simpa [node?] using childrenIh next later
      · simpa [node?, here] using siblingsIh segment rest

theorem Trie.node_append {α : Type} (trie : Trie α) (place more : List String) :
    trie.node? (place ++ more) = (trie.node? place).bind (·.below? more) := by
  cases place with
  | nil => cases more <;> rfl
  | cons segment rest => exact Forest.node_append trie.children segment rest more

namespace ZipArchive

/-- Below every place but an unused root there is a file. -/
theorem payload_below {names place : List String} {node : Trie.Node Nat}
    (found : (indexOf names).node? place = some node) (nonempty : place ≠ []) :
    ∃ rest entry, (node.below? rest).bind Trie.Node.payload = some entry := by
  have there : ((indexOf names).node? place).isSome = true := by
    rw [found]
    rfl
  rcases (Trie.node_is_some_run (writes names) place).mp there with root | ⟨whole, inserted, leads⟩
  · exact absurd root nonempty
  · obtain ⟨name, member, cut⟩ := mem_inserted_writes.mp inserted
    obtain ⟨rest, rfl⟩ := leads
    have carried := (payload_index_is_some names ("/" ++ name)).mpr ⟨name, member, rfl⟩
    rw [Trie.payload_eq _ cut, Trie.node_append, found, Option.bind_some] at carried
    obtain ⟨entry, payload⟩ := Option.isSome_iff_exists.mp carried
    exact ⟨rest, entry, payload⟩

/-- An entry is the payload of one place. -/
theorem payload_place_unique {names place other : List String} {entry : Nat}
    (here : ((indexOf names).node? place).bind Trie.Node.payload = some entry)
    (there : ((indexOf names).node? other).bind Trie.Node.payload = some entry) :
    place = other := by
  have valid := Trie.payloads_at_segments_run (writes names)
  have placeValid : Path.AreSegments place := valid place (by rw [← indexOf, here]; rfl)
  have otherValid : Path.AreSegments other := valid other (by rw [← indexOf, there]; rfl)
  rw [← Trie.payload_eq _ (Path.segments_of_segments placeValid), payload_index_iff] at here
  rw [← Trie.payload_eq _ (Path.segments_of_segments otherValid), payload_index_iff] at there
  obtain ⟨⟨name, named, -, text⟩, -⟩ := here
  obtain ⟨⟨otherName, otherNamed, -, otherText⟩, -⟩ := there
  rw [named] at otherNamed
  cases otherNamed
  exact Path.of_segments_injective placeValid otherValid (text.trans otherText.symm)

theorem place_unique {names place other : List String} {node : Trie.Node Nat}
    (here : (indexOf names).node? place = some node)
    (there : (indexOf names).node? other = some node) : place = other := by
  by_cases unused : place = [] ∧ other = []
  · rw [unused.1, unused.2]
  · have carried : ∃ rest entry, (node.below? rest).bind Trie.Node.payload = some entry := by
      by_cases root : place = []
      · exact payload_below there fun otherRoot => unused ⟨root, otherRoot⟩
      · exact payload_below here root
    obtain ⟨rest, entry, payload⟩ := carried
    have fromHere : ((indexOf names).node? (place ++ rest)).bind Trie.Node.payload =
        some entry := by
      rw [Trie.node_append, here, Option.bind_some, payload]
    have fromThere : ((indexOf names).node? (other ++ rest)).bind Trie.Node.payload =
        some entry := by
      rw [Trie.node_append, there, Option.bind_some, payload]
    have below := payload_place_unique fromHere fromThere
    exact List.append_cancel_right below

/-! ## The path of a listed name -/

theorem absolute_of_find {zip : ZipArchive} {path : String} {node : Trie.Node Nat}
    (found : zip.index.find? path = some node) : Path.isAbsolute path = true := by
  obtain ⟨place, cut, -⟩ := Option.bind_eq_some_iff.mp found
  exact Path.absolute_of_segments cut

theorem answers_of_node {zip : ZipArchive} {path : String} {node : Trie.Node Nat}
    (found : zip.index.find? path = some node) :
    zip.list path = .ok node.children.names ∧ zip.isFile path = .ok node.payload.isSome ∧
      zip.toArchive.isDirectory path = .ok (!node.isLeaf || node.payload.isNone) := by
  have absolute := absolute_of_find found
  have listed : zip.list path = .ok node.children.names := by
    rw [list, if_pos absolute, Trie.list, found]
    rfl
  have isFile : zip.isFile path = .ok node.payload.isSome := by
    rw [is_file_eq absolute, Trie.payload?, found, Option.bind_some]
  refine ⟨listed, isFile, ?_⟩
  have asked : zip.toArchive.list path = .ok node.children.names := listed
  have askedFile : zip.toArchive.isFile path = .ok node.payload.isSome := isFile
  simp only [Archive.is_directory_eq, asked, askedFile, Except.bind, Trie.Node.isLeaf]
  cases node.children <;> cases node.payload <;> rfl

/-- The path that is put together for a listed name leads to the node of that name. -/
def FindsListed (zip : ZipArchive) : Prop :=
  ∀ path node listed name, zip.index.find? path = some node → zip.list path = .ok listed →
    name ∈ listed → zip.index.find? (Path.child path name) = node.child? name

theorem find_child {names : List String} {path name : String} {node : Trie.Node Nat}
    (found : (indexOf names).find? path = some node) (listed : name ∈ node.children.names) :
    ∃ child place, node.child? name = some child ∧ Path.segments? path = some place ∧
      (indexOf names).find? (Path.child path name) =
        (indexOf names).node? (Path.childSegments place name) ∧
      ((indexOf names).find? (Path.child path name) = node.child? name ↔
        Path.Nests path name) := by
  obtain ⟨place, cut, here⟩ := Option.bind_eq_some_iff.mp found
  obtain ⟨child, isChild⟩ :=
    Option.isSome_iff_exists.mp ((Trie.child_is_some_iff node name).mpr listed)
  have inRow : name ∈ (indexOf names).childNames place := by
    rw [Trie.childNames, here]
    exact listed
  have free := Trie.child_names_run_free (writes names) place name inRow
  have led : (indexOf names).find? (Path.child path name) =
      (indexOf names).node? (Path.childSegments place name) := by
    rw [Trie.find?, Path.segments_child cut free, Option.bind_some]
  have own : (indexOf names).node? (place ++ [name]) = some child := by
    rw [Trie.node_append, here, Option.bind_some, ← Trie.Node.child_eq_below, isChild]
  refine ⟨child, place, isChild, cut, led, ?_⟩
  rw [led, isChild, ← Path.child_segments_eq_iff cut]
  constructor
  · intro reached
    exact place_unique reached own
  · intro same
    rw [same, own]

theorem exists_listed {names whole place : List String} {name path segment : String}
    (member : name ∈ fileNames names) (wholeCut : Path.segments? ("/" ++ name) = some whole)
    (cut : Path.segments? path = some place) (through : place ++ [segment] <+: whole) :
    ∃ node, (indexOf names).find? path = some node ∧ segment ∈ node.children.names := by
  have inRow := (Trie.mem_child_names_run (writes names) place segment).mpr
    ⟨whole, mem_inserted_writes.mpr ⟨name, member, wholeCut⟩, through⟩
  rw [← indexOf, Trie.childNames] at inRow
  cases here : (indexOf names).node? place with
  | none => simp [here] at inRow
  | some node =>
      rw [here] at inRow
      exact ⟨node, by rw [Trie.find?, cut, Option.bind_some, here], inRow⟩

theorem smooth_iff {name slashes : String} :
    ¬(Path.isAbsolute name = true ∨ ∃ before behind, name = before ++ slashes ++ behind) ↔
      Path.isAbsolute name = false ∧ ∀ before behind, name ≠ before ++ slashes ++ behind := by
  simp

theorem exists_nameless_of_absolute {names : List String} {name : String}
    (member : name ∈ fileNames names) (absolute : Path.isAbsolute name = true) :
    ∃ node, (indexOf names).find? "/" = some node ∧ "" ∈ node.children.names := by
  obtain ⟨rest, rfl⟩ := Path.is_absolute_iff.mp absolute
  exact exists_listed member (Path.segments_of_absolute_rest rest) Path.segments_root
    ⟨Path.pieces rest, rfl⟩

theorem exists_file_through {names place : List String} {node : Trie.Node Nat}
    (here : (indexOf names).node? place = some node) {segment : String}
    (listed : segment ∈ node.children.names) :
    ∃ name ∈ fileNames names, ∃ whole, Path.segments? ("/" ++ name) = some whole ∧
      name = "/".intercalate whole ∧ place ++ [segment] <+: whole := by
  have inRow : segment ∈ (Trie.run (writes names)).childNames place := by
    rw [← indexOf, Trie.childNames, here]
    exact listed
  obtain ⟨whole, inserted, through⟩ :=
    (Trie.mem_child_names_run (writes names) place segment).mp inRow
  obtain ⟨name, member, cut⟩ := mem_inserted_writes.mp inserted
  exact ⟨name, member, whole, cut, entry_path_injective (Path.of_segments_segments cut).symm,
    through⟩

/-- A listed name that is not put behind all segments comes from a file whose name starts with
a slash, or has two of them just before it. -/
theorem exists_rough {names : List String} {path segment : String} {node : Trie.Node Nat}
    (found : (indexOf names).find? path = some node) (listed : segment ∈ node.children.names)
    (apart : ¬Path.Nests path segment) :
    ∃ name ∈ fileNames names, Path.isAbsolute name = true ∨
      ∃ before more, name = before ++ "//" ++ "/".intercalate (segment :: more) := by
  obtain ⟨place, cut, here⟩ := Option.bind_eq_some_iff.mp found
  obtain ⟨name, member, whole, wholeCut, text, more, rfl⟩ := exists_file_through here listed
  refine ⟨name, member, ?_⟩
  rcases Path.not_nests cut apart with ⟨rfl, rfl⟩ | ⟨above, nonempty, rfl⟩
  · left
    have long : more ≠ [] := by
      intro none
      exact (Path.are_segments wholeCut).1 (by rw [none]; rfl)
    refine Path.is_absolute_iff.mpr ⟨"/".intercalate more, ?_⟩
    rw [text, List.nil_append, List.singleton_append,
      String.intercalate_cons_of_ne_nil long, String.empty_append]
  · right
    refine ⟨"/".intercalate above, more, ?_⟩
    rw [text, List.append_assoc, List.append_assoc, List.singleton_append,
      String.intercalate_append_of_ne_nil nonempty (by simp), List.singleton_append,
      String.intercalate_cons_of_ne_nil (by simp)]
    simp only [String.append_assoc, String.empty_append]
    rfl

theorem nests_of_listed {names : List String}
    (plain : ∀ name ∈ fileNames names, Path.isAbsolute name = false ∧
      ∀ before behind, name ≠ before ++ "//" ++ behind)
    {path segment : String} {node : Trie.Node Nat}
    (found : (indexOf names).find? path = some node) (listed : segment ∈ node.children.names) :
    Path.Nests path segment := by
  by_cases nests : Path.Nests path segment
  · exact nests
  · obtain ⟨name, member, rough⟩ := exists_rough found listed nests
    refine absurd ?_ (smooth_iff.mpr (plain name member))
    rcases rough with absolute | ⟨before, more, text⟩
    · exact .inl absolute
    · exact .inr ⟨before, _, text⟩

theorem exists_apart {names : List String} {name : String} (member : name ∈ fileNames names)
    (rough : Path.isAbsolute name = true ∨ ∃ before behind, name = before ++ "//" ++ behind) :
    ∃ path node segment, (indexOf names).find? path = some node ∧
      segment ∈ node.children.names ∧ ¬Path.Nests path segment := by
  rcases rough with absolute | ⟨before, behind, rfl⟩
  · obtain ⟨node, found, listed⟩ := exists_nameless_of_absolute member absolute
    exact ⟨"/", node, "", found, listed, by decide⟩
  · obtain ⟨segment, more, listing⟩ := List.exists_cons_of_ne_nil (Path.pieces_ne_nil behind)
    obtain ⟨wholeCut, cut⟩ := Path.segments_of_double before behind
    obtain ⟨node, found, listed⟩ := exists_listed member wholeCut cut
      ⟨more, by rw [listing, List.append_assoc, List.singleton_append]⟩
    refine ⟨_, node, segment, found, listed, ?_⟩
    rw [← Path.child_segments_eq_iff cut, Path.child_segments_snoc, if_pos rfl]
    intro same
    have lengths := congrArg List.length same
    simp at lengths

theorem finds_listed_iff {zip : ZipArchive} (indexed : zip.index = indexOf zip.table.names) :
    zip.FindsListed ↔ ∀ name ∈ fileNames zip.table.names, Path.isAbsolute name = false ∧
      ∀ before behind, name ≠ before ++ "//" ++ behind := by
  constructor
  · intro finds name member
    rw [← smooth_iff]
    intro rough
    obtain ⟨path, node, segment, found, listed, apart⟩ := exists_apart member rough
    obtain ⟨-, -, -, -, -, reached⟩ := find_child found listed
    rw [← indexed] at found reached
    exact apart (reached.mp (finds path node _ segment found (answers_of_node found).1 listed))
  · intro plain path node listed name found asked member
    rw [(answers_of_node found).1] at asked
    cases asked
    rw [indexed] at found ⊢
    obtain ⟨child, place, -, -, -, reached⟩ := find_child found member
    exact reached.mpr (nests_of_listed plain found member)

/-- The path of a listed name leads to the segments of the directory with the name behind
them just where it nests, and then it answers for the very child. So it does for everything
that is listed just where no name of a file starts with a slash or has two in a row. -/
theorem child_path_finds_child_iff (sourceName : String) (table : Zip.Table) :
    ∃ zip, (ofTable sourceName table).value = .ok zip ∧
      (∀ path node listed name, zip.index.find? path = some node → zip.list path = .ok listed →
        name ∈ listed →
          ∃ child place, node.child? name = some child ∧ Path.segments? path = some place ∧
            zip.index.find? (Path.child path name) =
              zip.index.node? (Path.childSegments place name) ∧
            (zip.index.find? (Path.child path name) = some child ↔ Path.Nests path name) ∧
            (Path.Nests path name →
              zip.list (Path.child path name) = .ok child.children.names ∧
                zip.isFile (Path.child path name) = .ok child.payload.isSome ∧
                zip.toArchive.isDirectory (Path.child path name) =
                  .ok (!child.isLeaf || child.payload.isNone))) ∧
      (zip.FindsListed ↔ ∀ name ∈ fileNames table.names, Path.isAbsolute name = false ∧
        ∀ before behind, name ≠ before ++ "//" ++ behind) := by
  refine ⟨_, of_table_value sourceName table, ?_, finds_listed_iff rfl⟩
  intro path node listed name found asked member
  rw [(answers_of_node found).1] at asked
  cases asked
  obtain ⟨child, place, isChild, cut, led, reached⟩ := find_child found member
  rw [isChild] at reached
  refine ⟨child, place, isChild, cut, led, reached, ?_⟩
  intro nests
  exact answers_of_node (reached.mpr nests)

def sampleNames : Zip.Table :=
  { names := ["a//b", "c/d"], contents := fun entry => .ok [UInt8.ofNat entry] }

theorem sample_child_path_finds :
    ∃ zip node child, (ofTable "sample.zip" sampleNames).value = .ok zip ∧
      zip.index.find? "/c" = some node ∧ zip.list "/c" = .ok ["d"] ∧ "d" ∈ ["d"] ∧
      Path.Nests "/c" "d" ∧ node.child? "d" = some child ∧
      zip.index.find? "/c/d" = some child ∧ zip.isFile "/c/d" = .ok child.payload.isSome := by
  obtain ⟨zip, opens, finds, -⟩ := child_path_finds_child_iff "sample.zip" sampleNames
  have same := opens
  rw [of_table_value] at same
  cases same
  have listed : "d" ∈ ["d"] := by simp
  have nests : Path.Nests "/c" "d" := by decide
  obtain ⟨child, -, isChild, -, -, reached, answers⟩ :=
    finds "/c" _ ["d"] "d" rfl rfl listed
  exact ⟨_, _, child, opens, rfl, rfl, listed, nests, isChild, reached.mpr nests,
    (answers nests).2.1⟩

/-- From `/a/`, where the file `b` of the nameless directory is listed, the path of `b` leads
nowhere, and what is nowhere is shown as a directory. -/
theorem listed_name_not_found :
    ∃ zip node child, (ofTable "sample.zip" sampleNames).value = .ok zip ∧
      zip.index.find? "/a/" = some node ∧ zip.list "/a/" = .ok ["b"] ∧
      node.child? "b" = some child ∧ child.payload = some 0 ∧
      zip.index.find? (Path.child "/a/" "b") = none ∧
      (Command.entries zip.toArchive "/a/" { includes := [], excludes := [] }).value =
        .ok [{ name := "b", path := "/a/b", isDirectory := true }] := by
  refine ⟨_, _, _, of_table_value "sample.zip" sampleNames, rfl, rfl, rfl, ?_, ?_, ?_⟩
  · decide
  · decide
  · cbv

end ZipArchive

end ArchiveBrowser

import ArchiveBrowser.Proofs.Command.Printing
import ArchiveBrowser.Proofs.Tree.Rows
import ArchiveBrowser.Proofs.Zip.Recursion

/-!
# The tree of a container

Where no name of a file has an empty segment, the path of every listed name leads to its node,
and a node without children carries a payload, so that what is shown as a directory is a node
with children. Drawing then goes through the nodes below the start one by one, and
`tree_shows_each_entry_once` says what is printed.
-/

set_option autoImplicit false

namespace ArchiveBrowser.ZipArchive

/-- The names of the files are made of segments that are not empty, without newlines. -/
structure TidyNames (names : List String) : Prop where
  no_empty_segment : ∀ name ∈ fileNames names, name ≠ "" → "" ∉ Path.pieces name
  no_newline : ∀ name ∈ fileNames names, '\n' ∉ name.toList

variable {names : List String}

theorem TidyNames.smooth (tidy : TidyNames names) :
    ∀ name ∈ fileNames names, Path.isAbsolute name = false ∧
      ∀ before behind, name ≠ before ++ "//" ++ behind := by
  intro name member
  rw [← smooth_iff]
  intro rough
  by_cases empty : name = ""
  · subst empty
    rcases rough with absolute | ⟨before, behind, same⟩
    · cases absolute
    · have letters := congrArg String.length same
      have slashes : "//".length = 2 := rfl
      rw [String.length_empty, String.length_append, String.length_append] at letters
      omega
  · apply tidy.no_empty_segment name member empty
    rcases rough with absolute | ⟨before, behind, rfl⟩
    · obtain ⟨rest, rfl⟩ := Path.is_absolute_iff.mp absolute
      rw [Path.pieces_slash]
      exact List.mem_cons_self
    · rw [Path.pieces_double]
      simp

/-! ## What is known of each node -/

theorem leaf_carries {place : List String} {node : Trie.Node Nat}
    (found : (indexOf names).node? place = some node) (nonempty : place ≠ [])
    (leaf : node.isLeaf = true) : node.payload.isSome = true := by
  obtain ⟨rest, entry, carried⟩ := payload_below found nonempty
  cases rest with
  | nil =>
      rw [Trie.Node.below?, Option.bind_some] at carried
      rw [carried]
      rfl
  | cons segment rest =>
      rw [Trie.Node.below_of_leaf leaf] at carried
      cases carried

theorem child_of_listed {zip : ZipArchive} (indexed : zip.index = indexOf zip.table.names)
    (tidy : TidyNames zip.table.names) {path name : String} {node : Trie.Node Nat}
    (found : zip.index.find? path = some node) (listed : name ∈ node.children.names) :
    ∃ child, node.child? name = some child ∧
      zip.index.find? (Path.child path name) = some child ∧
      zip.toArchive.isDirectory (Path.child path name) = .ok (node.leadsOn [name]) := by
  rw [indexed] at found
  obtain ⟨child, place, isChild, cut, led, reached⟩ := find_child found listed
  have nests := nests_of_listed tidy.smooth found listed
  have leads := reached.mpr nests
  rw [isChild] at leads
  have own : (indexOf zip.table.names).node? (place ++ [name]) = some child := by
    rw [← (Path.child_segments_eq_iff cut).mpr nests, ← led, leads]
  have carries := leaf_carries own (by simp)
  rw [← indexed] at leads
  refine ⟨child, isChild, leads, ?_⟩
  rw [(answers_of_node leads).2.2, Trie.Node.leads_on_child isChild]
  cases leaf : child.isLeaf with
  | false => rfl
  | true =>
      obtain ⟨entry, payload⟩ := Option.isSome_iff_exists.mp (carries leaf)
      rw [payload]
      rfl

theorem sorted_listing {zip : ZipArchive} (indexed : zip.index = indexOf zip.table.names)
    {path : String} {node : Trie.Node Nat} (found : zip.index.find? path = some node) :
    ∃ sorted, zip.toArchive.sortedChildren path = .ok sorted ∧
      (∀ name, name ∈ sorted ↔ name ∈ node.children.names) ∧
      sorted.Pairwise fun first second => Bytes.ofText first < Bytes.ofText second := by
  have asked : zip.toArchive.list path = .ok node.children.names := (answers_of_node found).1
  refine ⟨node.children.names.mergeSort fun first second => first ≤ second, ?_, ?_, ?_⟩
  · rw [Archive.sorted_children_eq, asked]
    rfl
  · intro name
    exact List.mem_mergeSort
  · have once : node.children.names.Nodup := by
      rw [indexed] at found
      obtain ⟨place, -, here⟩ := Option.bind_eq_some_iff.mp found
      have follow := (child_names_follow zip.table.names place).once
      rwa [Trie.childNames, here] at follow
    exact Bytes.sorted_by_bytes once

/-! ## The drawing -/

theorem draws_below {zip : ZipArchive} (indexed : zip.index = indexOf zip.table.names)
    (tidy : TidyNames zip.table.names) (levels : Nat) {path : String} {node : Trie.Node Nat}
    (found : zip.index.find? path = some node) (above : List Bool) :
    Tree.Draws node above (Tree.draw zip.toArchive .tooDeep levels path above) := by
  induction levels generalizing path node above with
  | zero =>
      intro complete
      cases complete
  | succ levels ih =>
      intro complete
      obtain ⟨sorted, asked, same, ordered⟩ := sorted_listing indexed found
      simp only [Tree.draw, asked] at complete ⊢
      have drawn := Tree.draw_entries_rows ordered (fun name member => (same name).mp member)
        (fun other member => .inl ((same other).mpr member)) ?_ ?_ complete
      · obtain ⟨places, rows, lines⟩ := drawn
        exact ⟨places, node.rows_of_all same rows, lines⟩
      · intro name member
        obtain ⟨-, -, -, told⟩ := child_of_listed indexed tidy found ((same name).mp member)
        exact told
      · intro name member child isChild lasts
        obtain ⟨other, isOther, leads, -⟩ :=
          child_of_listed indexed tidy found ((same name).mp member)
        rw [isChild] at isOther
        cases isOther
        exact ih leads lasts

theorem tidy_drawing_ends {zip : ZipArchive} (indexed : zip.index = indexOf zip.table.names)
    (tidy : TidyNames zip.table.names) {path : String} (absolute : Path.isAbsolute path = true) :
    (Tree.drawing zip.toArchive path none).ending = .complete := by
  apply (calls_end indexed absolute).2.mp
  apply (calls_end_everywhere indexed).mpr _ path absolute
  intro name member
  obtain ⟨relative, smooth⟩ := tidy.smooth name member
  refine ⟨relative, ?_⟩
  intro before behind same
  have third : "///" = "//" ++ "/" := rfl
  rw [third, ← String.append_assoc, String.append_assoc] at same
  exact smooth before _ same

/-! ## The letters of a row -/

theorem segment_of_file {place : List String} (there : ((indexOf names).node? place).isSome = true)
    {segment : String} (inside : segment ∈ place) :
    ∃ name ∈ fileNames names, name ≠ "" ∧ segment ∈ Path.pieces name := by
  rcases (Trie.node_is_some_run (writes names) place).mp there with root | ⟨whole, inserted, leads⟩
  · rw [root] at inside
    cases inside
  · obtain ⟨name, member, cut⟩ := mem_inserted_writes.mp inserted
    have through := leads.subset inside
    have nonempty : name ≠ "" := by
      intro empty
      rw [empty] at cut
      cases cut
      cases through
    rw [Path.segments_of_rest nonempty] at cut
    cases cut
    exact ⟨name, member, nonempty, through⟩

/-- The segments of a place in the index are plain names. -/
theorem TidyNames.segment (tidy : TidyNames names) {place : List String}
    (there : ((indexOf names).node? place).isSome = true) {segment : String}
    (inside : segment ∈ place) : Tree.PlainName segment := by
  obtain ⟨name, member, nonempty, piece⟩ := segment_of_file there inside
  constructor
  · rintro rfl
    exact tidy.no_empty_segment name member nonempty piece
  · exact Path.piece_free piece
  · exact (Path.not_mem_iff_pieces (by decide)).mp (tidy.no_newline name member) segment piece

theorem TidyNames.path (tidy : TidyNames names) {path : String} {node : Trie.Node Nat}
    (found : (indexOf names).find? path = some node) : '\n' ∉ path.toList := by
  obtain ⟨place, cut, here⟩ := Option.bind_eq_some_iff.mp found
  by_cases root : place = []
  · rw [root] at cut
    rw [Path.segments_eq_nil.mp cut]
    decide
  · rw [Path.not_mem_iff_pieces (by decide), Path.pieces_of_segments cut root]
    intro piece member
    rcases List.mem_cons.mp member with rfl | inside
    · exact List.not_mem_nil
    · have there : ((indexOf names).node? place).isSome = true := by
        rw [here]
        rfl
      exact (tidy.segment there inside).no_newline

/-! ## What is printed -/

/-- The start, a line for each place below it, an empty line and the numbers of places that
lead on and of those that do not. There is nothing behind the last newline. -/
def treeLines (path : String) (node : Trie.Node Nat) (places : List (List String)) :
    List String :=
  path :: places.map node.row ++
    ["", toString (places.countP node.leadsOn) ++ " directories, " ++
      toString (places.countP fun place => !node.leadsOn place) ++ " files", ""]

theorem digits_have_no_newline (number : Nat) : '\n' ∉ (toString number).toList := by
  intro letter
  have digits : (toString number).toList = Nat.toDigits 10 number := Nat.toList_repr
  rw [digits] at letter
  have digit := Nat.isDigit_of_mem_toDigits (by decide) (by decide) letter
  revert digit
  decide

theorem name_at_mem {place : List String} (nonempty : place ≠ []) :
    Trie.Node.nameAt place ∈ place := by
  rw [Trie.Node.nameAt, List.getLast?_eq_some_getLast nonempty]
  exact List.getLast_mem nonempty

theorem TidyNames.row (tidy : TidyNames names) {path : String} {node : Trie.Node Nat}
    (found : (indexOf names).find? path = some node) {places : List (List String)}
    (rows : node.Rows places) {place : List String} (member : place ∈ places) :
    Tree.PlainName (Trie.Node.nameAt place) := by
  obtain ⟨start, -, here⟩ := Option.bind_eq_some_iff.mp found
  obtain ⟨nonempty, there⟩ := (rows.complete place).mp member
  have below : ((indexOf names).node? (start ++ place)).isSome = true := by
    rw [Trie.node_append, here]
    exact there
  exact tidy.segment below (List.mem_append_right start (name_at_mem nonempty))

theorem prints_tree_lines {zip : ZipArchive} (indexed : zip.index = indexOf zip.table.names)
    (tidy : TidyNames zip.table.names) {path : String} {node : Trie.Node Nat}
    (found : zip.index.find? path = some node) :
    ∃ places text, node.Rows places ∧ Command.linesOf text = treeLines path node places ∧
      Command.Prints (Command.treeIn zip.toArchive path none) text := by
  have complete := tidy_drawing_ends indexed tidy (absolute_of_find found)
  obtain ⟨places, rows, lines⟩ := draws_below indexed tidy _ found [] complete
  change (Tree.drawing zip.toArchive path none).lines = _ at lines
  have rendered : (Tree.drawing zip.toArchive path none).lines.map Tree.Line.render =
      (places.map node.row).map (· ++ "\n") := by
    rw [lines, List.map_map, List.map_map]
    exact List.map_congr_left fun place _ => node.render_line_of place
  have summary : Command.summary (Tree.drawing zip.toArchive path none) =
      toString (places.countP node.leadsOn) ++ " directories, " ++
        toString (places.countP fun place => !node.leadsOn place) ++ " files" := by
    rw [Command.summary, Tree.Drawing.directoryCount, Tree.Drawing.fileCount, lines,
      List.countP_map, List.countP_map]
    rfl
  refine ⟨places, _, rows, ?_, Command.prints_tree complete rendered⟩
  rw [Command.lines_of_terminated, summary, treeLines, List.append_assoc]
  · rfl
  · intro line member
    rw [List.mem_append, List.mem_cons, List.mem_pair] at member
    rcases member with (rfl | row) | rfl | rfl
    · rw [indexed] at found
      exact tidy.path found
    · obtain ⟨place, inside, rfl⟩ := List.mem_map.mp row
      rw [indexed] at found
      exact (node.lineOf [] place).row_in_line (tidy.row found rows inside)
    · exact List.not_mem_nil
    · rw [summary]
      simp only [String.toList_append, List.mem_append, not_or]
      exact ⟨⟨⟨digits_have_no_newline _, by decide⟩, digits_have_no_newline _⟩, by decide⟩

/-! ## Files and leaves -/

/-- No name of a file continues another one behind a slash. -/
def FilesApart (names : List String) : Prop :=
  ∀ name ∈ fileNames names, ∀ other ∈ fileNames names, ∀ rest, other ≠ name ++ "/" ++ rest

theorem exists_file_at {place : List String} {node : Trie.Node Nat}
    (found : (indexOf names).node? place = some node) (carries : node.payload.isSome = true) :
    "/".intercalate place ∈ fileNames names := by
  have carried : (((indexOf names).node? place).bind Trie.Node.payload).isSome = true := by
    rw [found]
    exact carries
  have valid := Trie.payloads_at_segments_run (writes names) place carried
  rw [← Trie.payload_eq _ (Path.segments_of_segments valid), payload_index_is_some] at carried
  obtain ⟨name, member, text⟩ := carried
  rwa [entry_path_injective text]

theorem leaf_of_payload (apart : FilesApart names) {place : List String} {node : Trie.Node Nat}
    (found : (indexOf names).node? place = some node) (nonempty : place ≠ [])
    (carries : node.payload.isSome = true) : node.isLeaf = true := by
  cases children : node.children with
  | nil =>
      rw [Trie.Node.isLeaf, children]
      rfl
  | node segment payload below siblings =>
      have listed : segment ∈ node.children.names := by
        rw [children]
        exact List.mem_cons_self
      obtain ⟨other, member, whole, -, text, more, split⟩ := exists_file_through found listed
      rw [List.append_assoc] at split
      rw [← split, String.intercalate_append_of_ne_nil nonempty (by simp)] at text
      exact absurd text (apart _ (exists_file_at found carries) other member _)

/-- Below the root the leaves are the places of the files. -/
theorem leaf_iff_key (apart : FilesApart names) {place : List String} :
    (place ≠ [] ∧ ((indexOf names).root.below? place).isSome = true) ∧
        (indexOf names).root.leadsOn place = false ↔
      place ∈ (indexOf names).children.keys := by
  cases place with
  | nil => simp [Forest.nil_not_mem_keys]
  | cons segment rest =>
      have nonempty := List.cons_ne_nil segment rest
      have here : (indexOf names).root.below? (segment :: rest) =
          (indexOf names).node? (segment :: rest) := rfl
      have distinct : (indexOf names).children.Distinct := Trie.distinct_run (writes names)
      rw [Forest.mem_keys_iff distinct, Trie.Node.leadsOn, here]
      change _ ↔ (((indexOf names).node? (segment :: rest)).bind Trie.Node.payload).isSome = true
      cases found : (indexOf names).node? (segment :: rest) with
      | none => simp
      | some node =>
          have carries := leaf_carries found nonempty
          have leaf := leaf_of_payload apart found nonempty
          simp only [Option.isSome_some, Option.map_some, Option.getD_some, Option.bind_some,
            Bool.not_eq_false']
          exact ⟨fun below => carries below.2, fun payload => ⟨⟨nonempty, trivial⟩, leaf payload⟩⟩

theorem count_leaves (apart : FilesApart names) {places : List (List String)}
    (rows : (indexOf names).root.Rows places) :
    places.countP (fun place => !(indexOf names).root.leadsOn place) =
      (indexOf names).children.payloadCount := by
  have once : places.Nodup := by
    apply rows.in_order.imp
    rintro first second before rfl
    exact List.lt_irrefl _ before
  have keysOnce := Forest.nodup_keys (Trie.distinct_run (writes names))
  have same : (places.filter fun place => !(indexOf names).root.leadsOn place).Perm
      (indexOf names).children.keys := by
    apply (List.perm_ext_iff_of_nodup (once.filter _) keysOnce).mpr
    intro place
    rw [List.mem_filter, rows.complete, Bool.not_eq_true', leaf_iff_key apart]
    rfl
  rw [List.countP_eq_length_filter, same.length_eq, Forest.length_keys]

theorem count_files (apart : FilesApart names) {places : List (List String)}
    (rows : (indexOf names).root.Rows places) :
    places.countP (fun place => !(indexOf names).root.leadsOn place) +
        (if "" ∈ fileNames names then 1 else 0) = (indexOf names).payloadCount := by
  have root : (indexOf names).payload.isSome = true ↔ "" ∈ fileNames names := by
    have unnamed := payload_index_is_some names "/"
    constructor
    · intro carries
      obtain ⟨name, member, text⟩ := unnamed.mp carries
      have same : "/" ++ "" = "/" ++ name := String.append_empty.trans text
      rwa [entry_path_injective same]
    · intro member
      exact unnamed.mpr ⟨"", member, rfl⟩
  rw [count_leaves apart rows, Trie.payloadCount, Nat.add_comm]
  simp only [root]

/-- For a container whose file names are tidy, the tree from any place of the index is printed
with one line for each place below it. A file without a name is at the root, and has no line. -/
theorem tree_shows_each_entry_once (sourceName : String) {table : Zip.Table}
    (tidy : TidyNames table.names) :
    ∃ zip, (ofTable sourceName table).value = .ok zip ∧
      (∀ path node, zip.index.find? path = some node → ∃ places text,
        node.Rows places ∧
          (∀ place ∈ places, Path.endsWithSeparator (node.row place) = node.leadsOn place) ∧
          Command.linesOf text = treeLines path node places ∧
          Command.Prints (Command.treeIn zip.toArchive path none) text ∧
          ∀ system target, (Archive.ofTarget system target).value = .ok zip.toArchive →
            Command.Prints (fun sink => (Command.tree system target path none sink).value)
              text) ∧
      (FilesApart table.names → ∀ root places, zip.index.find? "/" = some root →
        root.Rows places →
          places.countP (fun place => !root.leadsOn place) +
            (if "" ∈ fileNames table.names then 1 else 0) = zip.fileCount) := by
  refine ⟨_, of_table_value sourceName table, ?_, ?_⟩
  · intro path node found
    obtain ⟨places, text, rows, lines, prints⟩ := prints_tree_lines rfl tidy found
    refine ⟨places, text, rows, ?_, lines, prints, ?_⟩
    · intro place member
      exact (node.lineOf [] place).row_ends (tidy.row found rows member)
    · intro system target opened sink accepts
      obtain ⟨after, run, stillAccepts, received⟩ := prints sink accepts
      refine ⟨after, ?_, stillAccepts, received⟩
      simp only [Command.tree, Command.withArchive, Log.Logged.andThen, opened]
      exact run
  · intro apart root places found rows
    cases found
    exact count_files apart rows

def sampleTree : Zip.Table :=
  { names := ["b/y", "c", "b/a/x"], contents := fun entry => .ok [UInt8.ofNat entry] }

theorem sample_tidy : TidyNames sampleTree.names := by
  have files : fileNames sampleTree.names = ["b/y", "c", "b/a/x"] := by decide
  constructor
  · rw [files]
    decide
  · rw [files]
    decide

theorem sample_files_apart : FilesApart sampleTree.names := by
  have files : fileNames sampleTree.names = ["b/y", "c", "b/a/x"] := by decide
  rw [FilesApart, files]
  intro name member other otherMember rest same
  have leads : (name ++ "/").toList <+: other.toList := by
    rw [same, String.toList_append (s := name ++ "/")]
    exact List.prefix_append _ _
  clear same rest
  revert name other
  decide

theorem sample_tree_shown :
    TidyNames sampleTree.names ∧ FilesApart sampleTree.names ∧
      ∃ zip places text, (ofTable "sample.zip" sampleTree).value = .ok zip ∧
        zip.index.find? "/" = some zip.index.root ∧ zip.index.root.Rows places ∧
        Command.linesOf text = treeLines "/" zip.index.root places ∧
        Command.Prints (Command.treeIn zip.toArchive "/" none) text ∧
        (Command.treeIn zip.toArchive "/" none Sink.unlimited).2.received = Bytes.ofText
          "/\n├── b/\n│   ├── a/\n│   │   └── x\n│   └── y\n└── c\n\n2 directories, 3 files\n" ∧
        places.countP (fun place => !zip.index.root.leadsOn place) = 3 := by
  obtain ⟨zip, opens, shown, counted⟩ := tree_shows_each_entry_once "sample.zip" sample_tidy
  have same := opens
  rw [of_table_value] at same
  cases same
  obtain ⟨places, text, rows, -, lines, prints, -⟩ := shown "/" _ rfl
  refine ⟨sample_tidy, sample_files_apart, _, places, text, opens, rfl, rows, lines, prints, ?_, ?_⟩
  · cbv
  · have files := counted sample_files_apart _ places rfl rows
    have named : "" ∉ fileNames sampleTree.names := by decide
    rw [if_neg named, Nat.add_zero] at files
    rw [files]
    decide

end ArchiveBrowser.ZipArchive

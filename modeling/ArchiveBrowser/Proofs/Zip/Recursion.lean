import ArchiveBrowser.Proofs.Tree.Calls
import ArchiveBrowser.Proofs.Zip.Navigation

/-!
# Where drawing the tree of a container comes to an end

Below a path there is something only if the path is no longer than the name of some file, so
that the calls come to an end unless one goes on with its own path. That happens at a path
which ends in a slash and lists a nameless directory, and there is one just where the name of
a file starts with a slash or has three in a row.
-/

set_option autoImplicit false

namespace ArchiveBrowser

namespace ZipArchive

theorem answers (zip : ZipArchive) : Tree.Answers zip.toArchive := by
  intro path absolute
  exact ⟨⟨zip.index.list path, if_pos absolute⟩, _, is_file_eq absolute⟩

theorem sorted_of_node {zip : ZipArchive} {path : String} {node : Trie.Node Nat}
    (found : zip.index.find? path = some node) {name : String}
    (listed : name ∈ node.children.names) :
    ∃ names, zip.toArchive.sortedChildren path = .ok names ∧ name ∈ names := by
  have asked : zip.toArchive.list path = .ok node.children.names := (answers_of_node found).1
  rw [Archive.sorted_children_eq, asked]
  exact ⟨_, rfl, List.mem_mergeSort.mpr listed⟩

theorem node_of_call {zip : ZipArchive} {path name : String}
    (call : Tree.Calls zip.toArchive path [name]) :
    ∃ node, zip.index.find? path = some node ∧ name ∈ node.children.names := by
  obtain ⟨⟨names, asked, member⟩, -⟩ := call
  have sorted : (zip.list path).map (·.mergeSort fun first second => first ≤ second) =
      .ok names := asked
  by_cases absolute : Path.isAbsolute path = true
  · rw [list, if_pos absolute] at sorted
    cases sorted
    have listed := List.mem_mergeSort.mp member
    rw [Trie.list] at listed
    cases found : zip.index.find? path with
    | none => simp [found] at listed
    | some node =>
        rw [found] at listed
        exact ⟨node, rfl, listed⟩
  · rw [list, if_neg absolute] at sorted
    cases sorted

/-! ## The length of the paths -/

theorem length_le_name {place whole : List String} {segment name : String}
    (cut : Path.segments? ("/" ++ name) = some whole) (text : name = "/".intercalate whole)
    (through : place ++ [segment] <+: whole) : (Path.ofSegments place).length ≤ name.length := by
  obtain ⟨more, rfl⟩ := through
  have slash : "/".length = 1 := rfl
  by_cases root : place = []
  · have nonempty : name ≠ "" := by
      intro empty
      rw [empty, root] at cut
      cases cut
    have positive : name.length ≠ 0 := mt String.length_eq_zero_iff.mp nonempty
    rw [root, Path.ofSegments, String.intercalate_nil, String.append_empty]
    omega
  · rw [text, Path.ofSegments, List.append_assoc,
      String.intercalate_append_of_ne_nil root (by simp)]
    simp only [String.length_append]
    omega

theorem length_le_longest {names : List String} {name : String} (member : name ∈ names) :
    name.length ≤ (names.map String.length).foldl max 0 := by
  rw [List.foldl_max]
  exact le_max_of_le_right (List.le_max?_getD_of_mem (List.mem_map_of_mem member))

theorem length_of_call {zip : ZipArchive} (indexed : zip.index = indexOf zip.table.names)
    (path name : String) (call : Tree.Calls zip.toArchive path [name]) :
    path.length + 2 ≤ zip.toArchive.height := by
  obtain ⟨node, found, listed⟩ := node_of_call call
  rw [indexed] at found
  obtain ⟨place, cut, here⟩ := Option.bind_eq_some_iff.mp found
  obtain ⟨file, member, whole, wholeCut, text, through⟩ := exists_file_through here listed
  have short := length_le_name wholeCut text through
  rw [Path.of_segments_segments cut] at short
  have longest := length_le_longest (List.mem_filter.mp member).1
  exact Nat.add_le_add_right (Nat.le_trans short longest) 2

/-! ## Calls that go on with their own path -/

theorem circles_of_nameless {zip : ZipArchive} {path : String} {node : Trie.Node Nat}
    (found : zip.index.find? path = some node) (nameless : "" ∈ node.children.names)
    (ends : Path.endsWithSeparator path = true) : Tree.Circles zip.toArchive path := by
  have same : Path.child path "" = path := Path.child_eq_self_iff.mpr ⟨ends, rfl⟩
  have inner : node.isLeaf = false := by
    rw [Trie.Node.isLeaf]
    cases children : node.children with
    | nil => simp [children, Forest.names] at nameless
    | node => rfl
  refine ⟨"", same, sorted_of_node found nameless, ?_, trivial⟩
  rw [same, (answers_of_node found).2.2, inner]
  rfl

/-- A nameless directory in a nameless directory comes from the name of a file. -/
theorem rough_of_circles {zip : ZipArchive} (indexed : zip.index = indexOf zip.table.names)
    {path : String} (circles : Tree.Circles zip.toArchive path) :
    ∃ name ∈ fileNames zip.table.names, Path.isAbsolute name = true ∨
      ∃ before behind, name = before ++ "///" ++ behind := by
  obtain ⟨segment, same, call⟩ := circles
  obtain ⟨ends, rfl⟩ := Path.child_eq_self_iff.mp same
  obtain ⟨node, found, nameless⟩ := node_of_call call
  have apart : ¬Path.Nests path "" := by simp [Path.Nests, ends]
  rw [indexed] at found
  obtain ⟨name, member, absolute | ⟨before, more, text⟩⟩ := exists_rough found nameless apart
  · exact ⟨name, member, .inl absolute⟩
  · have slashes : "//" = "/" ++ "/" := rfl
    -- If nothing came behind, the name would only mark a directory.
    have long : more ≠ [] := by
      intro none
      have marker : Path.endsWithSeparator name = true := by
        rw [text, none, String.intercalate_singleton, String.append_empty, slashes,
          ← String.append_assoc]
        exact Path.ends_with_separator_iff.mpr ⟨_, rfl⟩
      have file := (List.mem_filter.mp member).2
      rw [marker] at file
      cases file
    have third : "///" = "//" ++ "/" := rfl
    refine ⟨name, member, .inr ⟨before, "/".intercalate more, ?_⟩⟩
    rw [text, String.intercalate_cons_of_ne_nil long, third]
    simp only [String.append_assoc, String.empty_append]

theorem circles_of_rough {zip : ZipArchive} (indexed : zip.index = indexOf zip.table.names)
    {name : String} (member : name ∈ fileNames zip.table.names)
    (rough : Path.isAbsolute name = true ∨ ∃ before behind, name = before ++ "///" ++ behind) :
    ∃ path, Path.isAbsolute path = true ∧ Tree.Circles zip.toArchive path := by
  rcases rough with absolute | ⟨before, behind, rfl⟩
  · obtain ⟨node, found, nameless⟩ := exists_nameless_of_absolute member absolute
    rw [← indexed] at found
    exact ⟨"/", rfl, circles_of_nameless found nameless rfl⟩
  · have third : before ++ "///" ++ behind = before ++ "//" ++ ("/" ++ behind) := by
      have slashes : "///" = "//" ++ "/" := rfl
      simp only [slashes, String.append_assoc]
    obtain ⟨wholeCut, cut⟩ := Path.segments_of_double before ("/" ++ behind)
    rw [← third] at wholeCut
    have through : Path.pieces before ++ [""] ++ [""] <+:
        Path.pieces before ++ [""] ++ Path.pieces ("/" ++ behind) := by
      rw [Path.pieces_slash]
      exact ⟨Path.pieces behind, by simp⟩
    obtain ⟨node, found, nameless⟩ := exists_listed member wholeCut cut through
    rw [← indexed] at found
    have ends : Path.endsWithSeparator ("/" ++ (before ++ "/")) = true :=
      Path.ends_with_separator_iff.mpr ⟨"/" ++ before, String.append_assoc.symm⟩
    exact ⟨_, Path.absolute_of_segments cut, circles_of_nameless found nameless ends⟩

/-! ## The tree of a container -/

theorem calls_end {zip : ZipArchive} (indexed : zip.index = indexOf zip.table.names)
    {path : String} (absolute : Path.isAbsolute path = true) :
    ({chain | Tree.Calls zip.toArchive path chain}.Finite ↔
        ∀ chain, Tree.Calls zip.toArchive path chain →
          ¬Tree.Circles zip.toArchive (Tree.reached path chain)) ∧
      ({chain | Tree.Calls zip.toArchive path chain}.Finite ↔
        (Tree.drawing zip.toArchive path none).ending = .complete) :=
  Tree.finite_calls_iff (answers zip) (length_of_call indexed) (Nat.succ_pos _) absolute

theorem calls_end_everywhere {zip : ZipArchive} (indexed : zip.index = indexOf zip.table.names) :
    (∀ path, Path.isAbsolute path = true →
        {chain | Tree.Calls zip.toArchive path chain}.Finite) ↔
      ∀ name ∈ fileNames zip.table.names, Path.isAbsolute name = false ∧
        ∀ before behind, name ≠ before ++ "///" ++ behind := by
  constructor
  · intro ends name member
    rw [← smooth_iff]
    intro rough
    obtain ⟨path, absolute, circles⟩ := circles_of_rough indexed member rough
    exact (calls_end indexed absolute).1.mp (ends path absolute) [] trivial circles
  · intro plain path absolute
    apply (calls_end indexed absolute).1.mpr
    intro chain calls circles
    obtain ⟨name, member, rough⟩ := rough_of_circles indexed circles
    exact smooth_iff.mpr (plain name member) rough

/-- The calls for a path come to an end just where none of them goes on with its own path, and
just there the drawing is complete. They do so from everywhere, unless the name of a file
starts with a slash or has three in a row. -/
theorem calls_end_iff (sourceName : String) (table : Zip.Table) :
    ∃ zip, (ofTable sourceName table).value = .ok zip ∧
      (∀ path, Path.isAbsolute path = true →
        ({chain | Tree.Calls zip.toArchive path chain}.Finite ↔
            ∀ chain, Tree.Calls zip.toArchive path chain →
              ¬Tree.Circles zip.toArchive (Tree.reached path chain)) ∧
          ({chain | Tree.Calls zip.toArchive path chain}.Finite ↔
            (Tree.drawing zip.toArchive path none).ending = .complete)) ∧
      ((∀ path, Path.isAbsolute path = true →
          {chain | Tree.Calls zip.toArchive path chain}.Finite) ↔
        ∀ name ∈ fileNames table.names, Path.isAbsolute name = false ∧
          ∀ before behind, name ≠ before ++ "///" ++ behind) := by
  refine ⟨_, of_table_value sourceName table, ?_, calls_end_everywhere rfl⟩
  intro path absolute
  exact calls_end rfl absolute

theorem sample_calls_end :
    Path.isAbsolute "/" = true ∧ ∃ zip, (ofTable "sample.zip" sampleNames).value = .ok zip ∧
      (Tree.drawing zip.toArchive "/" none).ending = .complete ∧
      {chain | Tree.Calls zip.toArchive "/" chain}.Finite := by
  have absolute : Path.isAbsolute "/" = true := by decide
  obtain ⟨zip, opens, ends, -⟩ := calls_end_iff "sample.zip" sampleNames
  have same := opens
  rw [of_table_value] at same
  cases same
  have complete : (Tree.drawing (toArchive ⟨"sample.zip", sampleNames,
      indexOf sampleNames.names⟩) "/" none).ending = .complete := by cbv
  exact ⟨absolute, _, opens, complete, (ends "/" absolute).2.mpr complete⟩

def nestedNameless : Zip.Table :=
  { names := ["a///b"], contents := fun entry => .ok [UInt8.ofNat entry] }

/-- No name starts with a slash, and yet the calls from the root do not come to an end: the
nameless directory below `/a/` has the path `/a/` again. -/
theorem calls_without_end :
    (∀ name ∈ nestedNameless.names, Path.isAbsolute name = false) ∧
      Path.isAbsolute "/" = true ∧
      ∃ zip, (ofTable "sample.zip" nestedNameless).value = .ok zip ∧
        Path.child "/a/" "" = "/a/" ∧
        ¬{chain | Tree.Calls zip.toArchive "/" chain}.Finite := by
  refine ⟨by decide, by decide, _, of_table_value "sample.zip" nestedNameless, by decide, ?_⟩
  refine @Tree.infinite_calls _ "/" ["a", ""] ?_ ?_
  · exact ⟨sorted_of_node rfl (by decide), by decide, sorted_of_node rfl (by decide), by decide,
      trivial⟩
  · exact circles_of_nameless rfl (by decide) rfl

end ZipArchive

end ArchiveBrowser

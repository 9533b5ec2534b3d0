import ArchiveBrowser.Command.Tree
import ArchiveBrowser.Proofs.Archive.Levels
import ArchiveBrowser.Proofs.Command.Target
import ArchiveBrowser.Proofs.Tree.Depth

/-!
# Trees that are cut at a depth

A depth takes lines away from what a tree prints and numbers from its summary, and leaves
everything else as it is.
-/

set_option autoImplicit false

namespace ArchiveBrowser.Command

/-- The start, these lines, and behind them the number of directories and that of files among
them. -/
def drawn (path : String) (lines : List Tree.Line) : List Piece :=
  pieces .line [path, "\n"] ++ pieces .drawing (lines.flatMap Tree.Line.texts) ++
    pieces .line
      ["\n", toString (lines.countP (·.isDirectory)), " directories, ",
        toString (lines.countP (!·.isDirectory)), " files\n"]

variable {archive : Archive} {path : String} {depth : Option Nat} {sink : Sink}

theorem tree_in_complete {lines : List Tree.Line}
    (drew : Tree.drawing archive path depth = { lines, ending := .complete }) :
    treeIn archive path depth sink = print sink (drawn path lines) := by
  have texts : treePieces path { lines, ending := .complete } = (drawn path lines, none) := rfl
  simp only [treeIn, drew, texts]

theorem tree_complete {system : FileSystem} {target : String} {lines : List Tree.Line}
    (opened : (Archive.ofTarget system target).value = .ok archive)
    (drew : Tree.drawing archive path depth = { lines, ending := .complete }) :
    (tree system target path depth sink).value = print sink (drawn path lines) :=
  (with_archive_value opened sink _).trans (tree_in_complete drew)

/-- Where a tree without a depth comes to an end, a depth leaves of its lines those that are on no
deeper level, and changes nothing else that is printed but the numbers of the summary. No depth is
ever counted down from 0, and one to which no line goes is as good as none. -/
theorem depth_only_cuts_lines {full : Tree.Drawing}
    (yields : Tree.Yields archive path none full) (complete : full.ending = .complete)
    (depth : Nat) :
    (∀ sink, treeIn archive path (some depth) sink =
        print sink (drawn path (full.lines.filter fun line => line.level ≤ depth))) ∧
      (∀ system target, (Archive.ofTarget system target).value = .ok archive → ∀ sink,
        (tree system target path none sink).value = print sink (drawn path full.lines) ∧
          (tree system target path (some depth) sink).value =
            print sink (drawn path (full.lines.filter fun line => line.level ≤ depth))) ∧
      (full.height ≤ depth → full.lines.filter (fun line => line.level ≤ depth) = full.lines) ∧
      ∀ fewer : Nat → Nat, (∀ count, fewer (count + 1) = count) →
        (∃ rounds, Tree.countDown archive fewer rounds none path [] = full) ∧
          ∀ rounds, depth < rounds → Tree.countDown archive fewer rounds (some depth) path [] =
            Tree.drawing archive path (some depth) := by
  have cut : Tree.drawing archive path (some depth) =
      { lines := full.lines.filter fun line => line.level ≤ depth, ending := .complete } := by
    rw [yields.cut complete depth, Tree.Drawing.upTo, complete]
  refine ⟨fun sink => tree_in_complete cut, ?_, ?_, ?_⟩
  · intro system target opened sink
    have whole : Tree.drawing archive path none = { lines := full.lines, ending := .complete } := by
      rw [(Archive.opens_of_target opened).drawing_eq yields complete, ← complete]
    exact ⟨tree_complete opened whole, tree_complete opened cut⟩
  · intro low
    exact congrArg Tree.Drawing.lines (full.up_to_height low)
  · intro fewer one
    constructor
    · obtain ⟨-, levels, drew⟩ := yields
      exact ⟨levels, by rw [Tree.count_down_limitless, drew]⟩
    · intro rounds enough
      rw [Tree.count_down_limited one enough]
      rfl

namespace SampleDepth

def nested : Zip.Table :=
  { names := ["a/b/c", "a/d", "e"], contents := fun entry => .ok [UInt8.ofNat entry] }

def container : Archive :=
  ZipArchive.toArchive ⟨"nested.zip", nested, ZipArchive.indexOf nested.names⟩

/-- Counts down in a machine word, where 0 is followed by the largest number. -/
def fewer (count : Nat) : Nat :=
  if count = 0 then 2 ^ 64 - 1 else count - 1

def full : Tree.Drawing where
  lines := [⟨[], false, "a", true⟩, ⟨[false], false, "b", true⟩, ⟨[false, false], true, "c", false⟩,
    ⟨[false], true, "d", false⟩, ⟨[], true, "e", false⟩]
  ending := .complete

theorem drawn_full : Tree.drawing container "/" none = full := by cbv

end SampleDepth

open SampleDepth in
theorem sample_depth_cuts_lines :
    Tree.Yields container "/" none full ∧ full.ending = .complete ∧
      (treeIn container "/" (some 2) .unlimited = print .unlimited (drawn "/"
        [⟨[], false, "a", true⟩, ⟨[false], false, "b", true⟩, ⟨[false], true, "d", false⟩,
          ⟨[], true, "e", false⟩])) ∧
      (treeIn container "/" (some 2) .unlimited).2.received =
        Bytes.ofText "/\n├── a/\n│   ├── b/\n│   └── d\n└── e\n\n2 directories, 2 files\n" ∧
      Tree.countDown container fewer 3 (some 2) "/" [] = Tree.drawing container "/" (some 2) := by
  have yields : Tree.Yields container "/" none full := by
    rw [← drawn_full]
    apply Tree.yields_drawing
    rw [drawn_full]
    exact fun _ => nofun
  have one : ∀ count, fewer (count + 1) = count := fun count => rfl
  obtain ⟨cuts, -, -, counted⟩ := depth_only_cuts_lines yields rfl 2
  have shown := cuts .unlimited
  refine ⟨yields, rfl, shown, ?_, (counted fewer one).2 3 (by decide)⟩
  rw [shown]
  cbv

end ArchiveBrowser.Command

import ArchiveBrowser.Proofs.Path.Child
import ArchiveBrowser.Tree.Drawing
import Mathlib.Data.Set.Finite.Lattice

/-!
# The calls by which a tree is drawn

One call asks what is directly below a path and goes on with the path of each directory among
that. What decides whether the calls come to an end is the text of the paths: the path of a
child is longer than that of its directory, or the same. Where no call goes on with its own
path, a bound on the paths below which there is something bounds the calls, whatever the
archive is.
-/

set_option autoImplicit false

namespace ArchiveBrowser.Tree

variable {archive : Archive}

/-- Drawing what is below a path goes through these names, one below the other. -/
def Calls (archive : Archive) : (path : String) → (chain : List String) → Prop
  | _, [] => True
  | path, name :: rest =>
    (∃ names, archive.sortedChildren path = .ok names ∧ name ∈ names) ∧
      archive.isDirectory (Path.child path name) = .ok true ∧
      Calls archive (Path.child path name) rest

/-- The path for which the last call of a chain is made. -/
def reached (path : String) (chain : List String) : String :=
  chain.foldl Path.child path

/-- A call for this path goes on with the same path. -/
def Circles (archive : Archive) (path : String) : Prop :=
  ∃ name, Path.child path name = path ∧ Calls archive path [name]

theorem calls_append (path : String) (first second : List String) :
    Calls archive path (first ++ second) ↔
      Calls archive path first ∧ Calls archive (reached path first) second := by
  induction first generalizing path with
  | nil => simp [Calls, reached]
  | cons name rest ih =>
      simp only [List.cons_append, Calls, ih, and_assoc]
      rfl

/-! ## Endless calls -/

theorem calls_replicate {path name : String} (same : Path.child path name = path)
    (call : Calls archive path [name]) (count : Nat) :
    Calls archive path (List.replicate count name) := by
  induction count with
  | zero => trivial
  | succ count ih =>
      rw [List.replicate_succ]
      refine ⟨call.1, call.2.1, ?_⟩
      rw [same]
      exact ih

theorem infinite_calls {path : String} {chain : List String} (led : Calls archive path chain)
    (circles : Circles archive (reached path chain)) :
    {chain | Calls archive path chain}.Infinite := by
  obtain ⟨name, same, call⟩ := circles
  have injective : Function.Injective fun count => chain ++ List.replicate count name := by
    intro count other equal
    simpa using congrArg List.length equal
  apply Set.infinite_of_injective_forall_mem injective
  intro count
  exact (calls_append path chain _).mpr ⟨led, calls_replicate same call count⟩

/-! ## Calls that come to an end -/

/-- There are only finitely many chains up to a length, as every listing is finite. -/
theorem finite_calls_up_to (archive : Archive) (bound : Nat) (path : String) :
    {chain | Calls archive path chain ∧ chain.length ≤ bound}.Finite := by
  induction bound generalizing path with
  | zero =>
      apply (Set.finite_singleton []).subset
      rintro chain ⟨-, short⟩
      exact List.length_eq_zero_iff.mp (Nat.le_zero.mp short)
  | succ bound ih =>
      cases listed : archive.sortedChildren path with
      | error error =>
          apply (Set.finite_singleton []).subset
          rintro chain ⟨calls, -⟩
          cases chain with
          | nil => rfl
          | cons name rest =>
              obtain ⟨names, asked, -⟩ := calls.1
              rw [listed] at asked
              cases asked
      | ok names =>
          have rest : (⋃ name ∈ {name | name ∈ names}, (name :: ·) ''
              {chain | Calls archive (Path.child path name) chain ∧ chain.length ≤ bound}).Finite :=
            Set.Finite.biUnion (List.finite_toSet names) fun name _ => (ih _).image _
          apply (rest.insert []).subset
          rintro chain ⟨calls, short⟩
          cases chain with
          | nil => exact Set.mem_insert _ _
          | cons name rest =>
              obtain ⟨⟨others, asked, member⟩, -, below⟩ := calls
              rw [listed] at asked
              cases asked
              apply Set.mem_insert_of_mem
              exact Set.mem_biUnion member ⟨rest, ⟨below, by simpa using short⟩, rfl⟩

theorem length_of_calls {path : String} {chain : List String} (calls : Calls archive path chain)
    (forward : ∀ chain, Calls archive path chain → ¬Circles archive (reached path chain)) :
    path.length + chain.length ≤ (reached path chain).length := by
  induction chain generalizing path with
  | nil => exact Nat.le_refl _
  | cons name rest ih =>
      have other : Path.child path name ≠ path := by
        intro same
        exact forward [] trivial ⟨name, same, calls.1, calls.2.1, trivial⟩
      have longer := Path.length_lt_child other
      have below := ih calls.2.2 fun chain led =>
        forward (name :: chain) ⟨calls.1, calls.2.1, led⟩
      have start : reached path (name :: rest) = reached (Path.child path name) rest := rfl
      rw [start, List.length_cons]
      omega

theorem length_lt_height {path : String} {chain : List String}
    (low : ∀ path name, Calls archive path [name] → path.length + 2 ≤ archive.height)
    (tall : 0 < archive.height) (calls : Calls archive path chain)
    (forward : ∀ chain, Calls archive path chain → ¬Circles archive (reached path chain)) :
    chain.length < archive.height := by
  rcases List.eq_nil_or_concat' chain with rfl | ⟨front, last, rfl⟩
  · exact tall
  · obtain ⟨led, call⟩ := (calls_append path front [last]).mp calls
    have short := low _ _ call
    have long := length_of_calls led forward
    rw [List.length_append, List.length_singleton]
    omega

/-! ## The ending of a drawing -/

/-- An archive that answers for every path that starts with a slash. -/
def Answers (archive : Archive) : Prop :=
  ∀ path, Path.isAbsolute path = true →
    (∃ names, archive.list path = .ok names) ∧ ∃ answer, archive.isFile path = .ok answer

theorem Answers.is_directory (answers : Answers archive) {path : String}
    (absolute : Path.isAbsolute path = true) :
    ∃ answer, archive.isDirectory path = .ok answer := by
  obtain ⟨⟨names, listed⟩, answer, isFile⟩ := answers path absolute
  simp only [Archive.is_directory_eq, listed, isFile, Except.bind]
  cases names.isEmpty with
  | true => exact ⟨!answer, rfl⟩
  | false => exact ⟨true, rfl⟩

theorem Drawing.above_complete (upper lower : Drawing) :
    (upper.above lower).ending = .complete ↔
      upper.ending = .complete ∧ lower.ending = .complete := by
  cases ending : upper.ending <;> simp [above, ending]

theorem draw_entries_complete (answers : Answers archive) {directory : String}
    (absolute : Path.isAbsolute directory = true) {below : String → List Bool → Drawing}
    {Ends : String → Prop} (ends : ∀ path lasts, Path.isAbsolute path = true →
      ((below path lasts).ending = .complete ↔ Ends path)) (lasts : List Bool)
    (names : List String) :
    (drawEntries archive below directory lasts names).ending = .complete ↔
      ∀ name ∈ names, archive.isDirectory (Path.child directory name) = .ok true →
        Ends (Path.child directory name) := by
  induction names with
  | nil => simp [drawEntries, Drawing.ended]
  | cons name rest ih =>
      have inside := Path.is_absolute_child absolute name
      obtain ⟨isDirectory, told⟩ := answers.is_directory inside
      simp only [drawEntries, told, Drawing.above_complete, ih, List.forall_mem_cons]
      cases isDirectory with
      | true => simp [Drawing.under, ends _ _ inside]
      | false => simp [Drawing.under, Drawing.ended]

/-- A drawing with so many levels is complete if there are no longer chains of calls. -/
theorem draw_complete (answers : Answers archive) (levels : Nat) {path : String}
    (absolute : Path.isAbsolute path = true) (lasts : List Bool) :
    (draw archive .tooDeep levels path lasts).ending = .complete ↔
      ∀ chain, Calls archive path chain → chain.length < levels := by
  induction levels generalizing path lasts with
  | zero =>
      constructor
      · intro complete
        cases complete
      · intro short
        exact absurd (short [] trivial) (Nat.not_lt_zero _)
  | succ levels ih =>
      obtain ⟨⟨names, listed⟩, -⟩ := answers path absolute
      have sorted : ∃ sorted, archive.sortedChildren path = .ok sorted := by
        rw [Archive.sorted_children_eq, listed]
        exact ⟨_, rfl⟩
      obtain ⟨sorted, asked⟩ := sorted
      simp only [draw, asked]
      rw [draw_entries_complete answers absolute fun path lasts absolute => ih absolute lasts]
      constructor
      · intro short chain calls
        cases chain with
        | nil => exact Nat.succ_pos levels
        | cons name rest =>
            obtain ⟨⟨others, same, member⟩, directory, below⟩ := calls
            rw [asked] at same
            cases same
            exact Nat.succ_lt_succ (short name member directory rest below)
      · intro short name member directory chain calls
        exact Nat.lt_of_succ_lt_succ
          (short (name :: chain) ⟨⟨sorted, asked, member⟩, directory, calls⟩)

/-- The calls come to an end if none of them goes on with its own path, and then the levels
that an archive may have suffice. -/
theorem finite_calls_iff (answers : Answers archive)
    (low : ∀ path name, Calls archive path [name] → path.length + 2 ≤ archive.height)
    (tall : 0 < archive.height) {path : String} (absolute : Path.isAbsolute path = true) :
    ({chain | Calls archive path chain}.Finite ↔
        ∀ chain, Calls archive path chain → ¬Circles archive (reached path chain)) ∧
      ({chain | Calls archive path chain}.Finite ↔
        (drawing archive path none).ending = .complete) := by
  have forward : {chain | Calls archive path chain}.Finite →
      ∀ chain, Calls archive path chain → ¬Circles archive (reached path chain) := by
    intro finite chain led circles
    exact infinite_calls led circles finite
  have complete := draw_complete answers archive.height absolute []
  have bounded : (∀ chain, Calls archive path chain → chain.length < archive.height) →
      {chain | Calls archive path chain}.Finite := by
    intro short
    apply (finite_calls_up_to archive archive.height path).subset
    intro chain calls
    exact ⟨calls, Nat.le_of_lt (short chain calls)⟩
  refine ⟨⟨forward, ?_⟩, ?_⟩
  · intro onward
    exact bounded fun chain calls => length_lt_height low tall calls onward
  · rw [drawing, complete]
    constructor
    · intro finite chain calls
      exact length_lt_height low tall calls (forward finite)
    · exact bounded

end ArchiveBrowser.Tree

import ArchiveBrowser.Proofs.Text.Sorted
import ArchiveBrowser.Proofs.Tree.Listing

/-!
# An archive for every tree of entries

An archive answers for a path, and a tree of plain names is followed name by name. Below a start
the path of a place has the names of the place between its slashes, so that an archive can be made
that shows any given tree there.
-/

set_option autoImplicit false

namespace ArchiveBrowser.Tree

/-! ## The paths of places -/

theorem reached_snoc (start : String) (place : List String) (name : String) :
    reached start (place ++ [name]) = Path.child (reached start place) name := by
  rw [reached, List.foldl_append]
  rfl

variable {start : String} {place : List String}

/-- Behind the start a path has the names with slashes between them. -/
theorem reached_eq (plain : ∀ name ∈ place, PlainName name) (below : place ≠ []) :
    reached start place = Path.child start "" ++ "/".intercalate place := by
  induction place using List.reverseRecOn with
  | nil => exact absurd rfl below
  | append_singleton front name ih =>
      rw [reached_snoc]
      rcases List.eq_nil_or_concat' front with rfl | ⟨above, last, rfl⟩
      · rw [List.nil_append, String.intercalate_singleton]
        exact Path.child_eq_append start name
      · have frontPlain : ∀ other ∈ above ++ [last], PlainName other := fun other member =>
          plain other (List.mem_append_left _ member)
        have far := ih frontPlain (by simp)
        rw [reached_snoc] at far ⊢
        have lastPlain := frontPlain last (by simp)
        have joined : "/".intercalate (above ++ [last] ++ [name]) =
            "/".intercalate (above ++ [last]) ++ "/" ++ name := by
          rw [String.intercalate_append_of_ne_nil (by simp) (by simp),
            String.intercalate_singleton]
        rw [Path.child_of_child lastPlain.nonempty lastPlain.free, far, joined]
        simp only [String.append_assoc]

/-- The names by which a path goes on from the start. -/
def namesBelow (start path : String) : List String :=
  if path = start then []
  else Path.pieces (String.ofList (path.toList.drop (Path.child start "").toList.length))

theorem names_below_reached (plain : ∀ name ∈ place, PlainName name) :
    namesBelow start (reached start place) = place := by
  by_cases below : place = []
  · rw [below]
    exact if_pos rfl
  · have free : ∀ name ∈ place, Path.separator ∉ name.toList := fun name member =>
      (plain name member).free
    have cut := Path.pieces_intercalate below free
    have other : reached start place ≠ start := by
      intro same
      rw [reached_eq plain below, ← Path.child_eq_append, Path.child_eq_self_iff] at same
      rw [same.2] at cut
      exact (plain "" (by simp [← cut, Path.pieces])).nonempty rfl
    rw [namesBelow, if_neg other, reached_eq plain below, String.toList_append,
      List.drop_left, String.ofList_toList, cut]

namespace Listing

/-! ## Following a tree -/

/-- What a place is: a file, or a directory with what is below it. -/
inductive Node where
  | file
  | directory (below : Listing)
  deriving DecidableEq

def find? : Listing → (name : String) → Option Node
  | empty, _ => none
  | file other later, name => if name = other then some .file else later.find? name
  | directory other below later, name =>
    if name = other then some (.directory below) else later.find? name

def node? (listing : Listing) : (place : List String) → Option Node
  | [] => some (.directory listing)
  | name :: rest =>
    match listing.find? name with
    | none => none
    | some .file => if rest = [] then some .file else none
    | some (.directory below) => below.node? rest

theorem mem_of_find {listing : Listing} {name : String} {node : Node}
    (found : listing.find? name = some node) : name ∈ listing.names := by
  induction listing with
  | empty => cases found
  | file other later ih | directory other below later _ ih =>
      rw [find?] at found
      by_cases same : name = other
      · rw [same]
        exact List.mem_cons_self
      · rw [if_neg same] at found
        exact List.mem_cons_of_mem other (ih found)

theorem node_single (listing : Listing) (name : String) :
    listing.node? [name] = listing.find? name := by
  rw [node?]
  cases listing.find? name with
  | none => rfl
  | some node => cases node <;> rfl

theorem node_append {listing below : Listing} {place : List String}
    (found : listing.node? place = some (.directory below)) (rest : List String) :
    listing.node? (place ++ rest) = below.node? rest := by
  induction place generalizing listing with
  | nil =>
      cases found
      rfl
  | cons name place ih =>
      rw [List.cons_append, node?]
      rw [node?] at found
      cases entered : listing.find? name with
      | none =>
          rw [entered] at found
          cases found
      | some node =>
          rw [entered] at found
          cases node with
          | file =>
              dsimp only at found
              split at found <;> cases found
          | directory inside => exact ih found

/-! ## The archive -/

/-- The archive that has the given tree below `start`, and nothing in its files. -/
def archive (whole : Listing) (start : String) : Archive where
  kind := .directory
  listing path :=
    match whole.node? (namesBelow start path) with
    | some (.directory below) => .quiet (.ok below.names)
    | _ => .quiet (.ok [])
  isFile path := .ok (whole.node? (namesBelow start path) = some .file)
  openFile _ := .quiet (.ok none)
  height := whole.depth + 1

variable {whole below : Listing}

theorem names_sorted {listing : Listing} (tidy : listing.Tidy) :
    listing.names.Pairwise (· < ·) := by
  induction listing with
  | empty => exact List.Pairwise.nil
  | file name later ih => exact List.Pairwise.cons tidy.2.1 (ih tidy.2.2)
  | directory name below later _ ih => exact List.Pairwise.cons tidy.2.1 (ih tidy.2.2.2)

theorem is_directory_of_file (plain : ∀ name ∈ place, PlainName name)
    (found : whole.node? place = some .file) :
    (whole.archive start).isDirectory (reached start place) = .ok false := by
  simp only [Archive.is_directory_eq, Archive.list, archive, names_below_reached plain, found]
  rfl

theorem is_directory_of_directory (plain : ∀ name ∈ place, PlainName name)
    (found : whole.node? place = some (.directory below)) :
    (whole.archive start).isDirectory (reached start place) = .ok true := by
  simp only [Archive.is_directory_eq, Archive.list, archive, names_below_reached plain, found]
  cases below.names <;> rfl

theorem sorted_of_directory (plain : ∀ name ∈ place, PlainName name) (tidy : below.Tidy)
    (found : whole.node? place = some (.directory below)) :
    (whole.archive start).sortedChildren (reached start place) = .ok below.names := by
  simp only [Archive.sorted_children_eq, Archive.list, archive, names_below_reached plain, found]
  exact congrArg Except.ok (Text.sorted_of_increasing (names_sorted tidy))

theorem plain_snoc (plain : ∀ name ∈ place, PlainName name) {name : String}
    (isPlain : PlainName name) : ∀ other ∈ place ++ [name], PlainName other :=
  List.forall_mem_append.mpr ⟨plain, List.forall_mem_singleton.mpr isPlain⟩

/-- Entries that are found in a place are marked there as what they are. -/
theorem marked_of_found {listing : Listing} (tidy : listing.Tidy)
    (plain : ∀ name ∈ place, PlainName name)
    (found : ∀ name node, listing.find? name = some node →
      whole.node? (place ++ [name]) = some node) :
    listing.Marked (whole.archive start) (reached start place) := by
  induction listing generalizing place with
  | empty => trivial
  | file name later ih =>
      obtain ⟨isPlain, before, laterTidy⟩ := tidy
      have here := found name .file (if_pos rfl)
      refine ⟨?_, ih laterTidy plain fun other node entered => ?_⟩
      · rw [← reached_snoc]
        exact is_directory_of_file (plain_snoc plain isPlain) here
      · -- The siblings behind have other names, so that finding them goes on past this one.
        have apart : other ≠ name := (before other (mem_of_find entered)).ne'
        exact found other node ((if_neg apart).trans entered)
  | directory name below later belowIh laterIh =>
      obtain ⟨isPlain, before, belowTidy, laterTidy⟩ := tidy
      have here := found name (.directory below) (if_pos rfl)
      have further := plain_snoc plain isPlain
      rw [Marked, ← reached_snoc]
      refine ⟨is_directory_of_directory further here, sorted_of_directory further belowTidy here,
        belowIh belowTidy further fun other node entered => ?_,
        laterIh laterTidy plain fun other node entered => ?_⟩
      · rw [node_append here, node_single, entered]
      · have apart : other ≠ name := (before other (mem_of_find entered)).ne'
        exact found other node ((if_neg apart).trans entered)

/-- Every tree of plain names in order is shown by an archive. -/
theorem shown_by_archive {listing : Listing} (tidy : listing.Tidy) (start : String) :
    listing.ShownBy (listing.archive start) start where
  names := by
    have plain : ∀ name ∈ ([] : List String), PlainName name := nofun
    exact sorted_of_directory plain tidy rfl
  marked := by
    have plain : ∀ name ∈ ([] : List String), PlainName name := nofun
    refine marked_of_found tidy plain fun name node entered => ?_
    rw [List.nil_append, node_single, entered]

end Listing

end ArchiveBrowser.Tree

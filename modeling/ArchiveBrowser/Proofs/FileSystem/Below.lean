import ArchiveBrowser.FileSystem.Query
import ArchiveBrowser.Proofs.FileSystem.Walk
import ArchiveBrowser.Proofs.Path.Steps

/-!
# File systems that agree below a place

From a place on, pieces that do not lead upwards are followed alike in two file systems that
have the same at and below it, until they meet a symbolic link: its target may be anywhere.
Up to there it makes no difference what the file systems have elsewhere, nor how many links
were followed before.
-/

set_option autoImplicit false

namespace ArchiveBrowser.FileSystem

/-- The same is at and below a place in both file systems. -/
def AgreesBelow (first second : FileSystem) (base : Location) : Prop :=
  ∀ place, first.objectAt? (base ++ place) = second.objectAt? (base ++ place)

/-- Some of the steps, from the first on, lead from a place to a symbolic link. -/
def MeetsLink (system : FileSystem) (base : Location) (steps : List String) : Prop :=
  ∃ names target, names ≠ [] ∧ names.map FileName.bytes <+: steps.map Bytes.ofText ∧
    system.objectAt? (base ++ names) = some (.linkTo target)

variable {first second : FileSystem} {base : Location}

theorem meets_link_cons {system : FileSystem} {name : FileName} {step : String}
    {steps : List String} (named : Bytes.ofText step = name.bytes)
    (meets : system.MeetsLink (base ++ [name]) steps) : system.MeetsLink base (step :: steps) := by
  obtain ⟨names, target, -, leads, held⟩ := meets
  refine ⟨name :: names, target, by simp, ?_, by rwa [← List.append_cons] at held⟩
  rw [List.map_cons, List.map_cons, named]
  exact List.prefix_cons_inj _ |>.mpr leads

theorem AgreesBelow.deeper (agrees : first.AgreesBelow second base) (names : Location) :
    first.AgreesBelow second (base ++ names) := by
  intro place
  rw [List.append_assoc]
  exact agrees (names ++ place)

theorem AgreesBelow.here (agrees : first.AgreesBelow second base) :
    first.objectAt? base = second.objectAt? base := by
  have same := agrees []
  rwa [List.append_nil] at same

theorem AgreesBelow.access (agrees : first.AgreesBelow second base) :
    first.accessAt? base = second.accessAt? base := by
  rw [accessAt?, accessAt?, agrees.here]

theorem AgreesBelow.hindrance (agrees : first.AgreesBelow second base) (piece : Bytes) :
    first.hindrance base piece = second.hindrance base piece := by
  rw [FileSystem.hindrance, FileSystem.hindrance, agrees.access]

/-- Following pieces gives the same in both file systems: an error, or a place below. -/
def FollowsAlike (first second : FileSystem) (links more : Nat) (base : Location)
    (pieces : List Bytes) : Prop :=
  (∃ error, first.walk links base pieces = .error error ∧
      second.walk more base pieces = .error error) ∨
    ∃ below, first.walk links base pieces = .ok (base ++ below) ∧
      second.walk more base pieces = .ok (base ++ below)

theorem FollowsAlike.cons {name : FileName} {links more : Nat} {rest : List Bytes}
    (onward : first.walk links base (name.bytes :: rest) = first.walk links (base ++ [name]) rest)
    (also : second.walk more base (name.bytes :: rest) = second.walk more (base ++ [name]) rest)
    (alike : FollowsAlike first second links more (base ++ [name]) rest) :
    FollowsAlike first second links more base (name.bytes :: rest) := by
  unfold FollowsAlike
  rw [onward, also]
  rcases alike with failed | ⟨below, led, ledAlso⟩
  · exact .inl failed
  · rw [List.append_assoc] at led ledAlso
    exact .inr ⟨[name] ++ below, led, ledAlso⟩

theorem walk_in_place {system : FileSystem} {piece : String} (noStep : ¬Path.isStep piece = true)
    (clear : system.hindrance base (Bytes.ofText piece) = none) (links : Nat)
    (rest : List Bytes) :
    system.walk links base (Bytes.ofText piece :: rest) = system.walk links base rest := by
  rw [Path.is_step_iff, not_and_or, not_not, not_not] at noStep
  rw [walk, clear]
  rcases noStep with rfl | rfl <;> rfl

theorem alike_hindered (agrees : first.AgreesBelow second base) {piece : Bytes} {error : OsError}
    (hindered : first.hindrance base piece = some error) (links more : Nat)
    (rest : List Bytes) : FollowsAlike first second links more base (piece :: rest) :=
  .inl ⟨error, walk_of_hindrance hindered links rest,
    walk_of_hindrance ((agrees.hindrance piece).symm.trans hindered) more rest⟩

theorem alike_absent (agrees : first.AgreesBelow second base) {piece : Bytes}
    (plain : Path.Bytewise.IsPlain piece) (clear : first.hindrance base piece = none)
    (absent : ∀ name : FileName, piece = name.bytes →
      (first.objectAt? (base ++ [name])).isSome = false)
    (links more : Nat) (rest : List Bytes) :
    FollowsAlike first second links more base (piece :: rest) := by
  have nothing : ∀ name : FileName, piece = name.bytes →
      first.objectAt? (base ++ [name]) = none := by
    intro name same
    rw [← Option.not_isSome_iff_eq_none, absent name same]
    exact Bool.false_ne_true
  have nothingAlso : ∀ name : FileName, piece = name.bytes →
      second.objectAt? (base ++ [name]) = none := by
    intro name same
    exact (agrees [name]).symm.trans (nothing name same)
  left
  exact ⟨_, walk_absent plain clear nothing links rest,
    walk_absent plain ((agrees.hindrance piece).symm.trans clear) nothingAlso more rest⟩

theorem alike_at_entry (agrees : first.AgreesBelow second base) {name : FileName} {step : String}
    {steps : List String} {rest : List Bytes} {links more : Nat}
    (named : Bytes.ofText step = name.bytes)
    (clear : first.hindrance base (Bytes.ofText step) = none)
    (there : (first.objectAt? (base ++ [name])).isSome = true)
    (onward : first.MeetsLink (base ++ [name]) steps ∨
      FollowsAlike first second links more (base ++ [name]) rest) :
    first.MeetsLink base (step :: steps) ∨
      FollowsAlike first second links more base (Bytes.ofText step :: rest) := by
  obtain ⟨object, held⟩ := Option.isSome_iff_exists.mp there
  have heldAlso := (agrees [name]).symm.trans held
  have clearAlso := (agrees.hindrance _).symm.trans clear
  rw [named] at clear clearAlso ⊢
  cases object with
  | linkTo target =>
      left
      exact ⟨[name], target, by simp, by simp [named], held⟩
  | barred error =>
      right
      left
      exact ⟨error, walk_barred clear held links rest, walk_barred clearAlso heldAlso more rest⟩
  | file | closed | directoryWith =>
      rcases onward with meets | alike
      · left
        exact meets_link_cons named meets
      · right
        exact alike.cons (walk_name clear held nofun nofun links rest)
          (walk_name clearAlso heldAlso nofun nofun more rest)

/-- Unless a symbolic link is met, pieces are followed alike from where the file systems agree. -/
theorem walk_of_agrees (agrees : first.AgreesBelow second base) (links more : Nat)
    {pieces : List String} (inside : ".." ∉ pieces) :
    first.MeetsLink base (pieces.filter Path.isStep) ∨
      FollowsAlike first second links more base (pieces.map Bytes.ofText) := by
  induction pieces generalizing base with
  | nil =>
      right
      right
      exact ⟨[], by rw [List.map_nil, walk, List.append_nil],
        by rw [List.map_nil, walk, List.append_nil]⟩
  | cons piece rest ih =>
      have insideRest : ".." ∉ rest := fun member => inside (List.mem_cons_of_mem _ member)
      rw [List.map_cons]
      cases hindered : first.hindrance base (Bytes.ofText piece) with
      | some error =>
          right
          exact alike_hindered agrees hindered links more _
      | none =>
          by_cases step : Path.isStep piece = true
          · have solid := Path.is_step_iff.mp step
            have plain : Path.IsPlain piece :=
              ⟨solid.1, solid.2, fun upwards => inside (by simp [upwards])⟩
            rw [List.filter_cons_of_pos step]
            by_cases present : ∃ name : FileName, Bytes.ofText piece = name.bytes ∧
                (first.objectAt? (base ++ [name])).isSome = true
            · obtain ⟨name, named, there⟩ := present
              have onward := ih (agrees.deeper [name]) insideRest
              exact alike_at_entry agrees named hindered there onward
            · right
              apply alike_absent agrees (Path.Bytewise.is_plain_of_text plain) hindered
              intro name same
              rw [Bool.eq_false_iff]
              exact fun there => present ⟨name, same, there⟩
          · have clearAlso := (agrees.hindrance _).symm.trans hindered
            unfold FollowsAlike
            rw [List.filter_cons_of_neg step, walk_in_place step hindered,
              walk_in_place step clearAlso]
            exact ih agrees insideRest

theorem locate_of_agrees (agrees : first.AgreesBelow second base) {root rest : String}
    (rooted : first.locate root = .ok base) (rootedAlso : second.locate root = .ok base)
    (relative : Path.isAbsolute rest = false) (inside : ".." ∉ Path.pieces rest) :
    first.MeetsLink base (Path.steps rest) ∨
      (∃ error, first.locate (Path.push root rest) = .error error ∧
        second.locate (Path.push root rest) = .error error) ∨
      ∃ below, first.locate (Path.push root rest) = .ok (base ++ below) ∧
        second.locate (Path.push root rest) = .ok (base ++ below) := by
  obtain ⟨links, followed⟩ := follow_push rooted relative
  obtain ⟨more, followedAlso⟩ := follow_push rootedAlso relative
  rcases walk_of_agrees agrees links more inside with meets | alike
  · exact .inl meets
  · right
    rw [locate_eq, locate_eq, followed, followedAlso]
    split
    · exact .inl ⟨_, rfl, rfl⟩
    · split
      · exact .inl ⟨_, rfl, rfl⟩
      · split
        · exact .inl ⟨_, rfl, rfl⟩
        · exact alike

/-! ## What is found there -/

theorem entries_of_agrees (agrees : first.AgreesBelow second base) :
    (∃ names others, first.entriesAt base = .ok names ∧ second.entriesAt base = .ok others ∧
        names.Perm others) ∨
      ∃ error, first.entriesAt base = .error error ∧ second.entriesAt base = .error error := by
  have names : (first.namesIn base).Perm (second.namesIn base) := by
    apply (List.perm_ext_iff_of_nodup (first.nodup_names_in _) (second.nodup_names_in _)).mpr
    intro name
    rw [mem_names_in, mem_names_in, agrees]
  unfold entriesAt
  rw [agrees.access]
  cases second.accessAt? base with
  | none => exact .inr ⟨_, rfl, rfl⟩
  | some access =>
      dsimp only
      cases access.listing with
      | complete => exact .inl ⟨_, _, rfl, rfl, names⟩
      | brokenOff seen => exact .inl ⟨_, _, rfl, rfl, names.filter _⟩
      | refused error => exact .inr ⟨_, rfl, rfl⟩

theorem find_of_agrees (agrees : first.AgreesBelow second base) {path : String} {below : Location}
    (located : first.locate path = .ok (base ++ below))
    (locatedAlso : second.locate path = .ok (base ++ below)) :
    first.find path = second.find path := by
  unfold find
  rw [located, locatedAlso]
  dsimp only [bind, Except.bind]
  rw [agrees below]

theorem listing_of_agrees (agrees : first.AgreesBelow second base) {path : String}
    {below : Location} (located : first.locate path = .ok (base ++ below))
    (locatedAlso : second.locate path = .ok (base ++ below)) :
    (first.listing path).value.Perm (second.listing path).value := by
  have found := find_of_agrees agrees located locatedAlso
  unfold listing isDirectory
  rw [found, located, locatedAlso]
  split
  · rcases entries_of_agrees (agrees.deeper below) with
      ⟨names, others, read, readAlso, same⟩ | ⟨error, failed, failedAlso⟩
    · simp only [bind, Except.bind, read, readAlso]
      exact same.map _
    · simp only [bind, Except.bind, failed, failedAlso]
      exact List.Perm.refl _
  · exact List.Perm.refl _

end ArchiveBrowser.FileSystem

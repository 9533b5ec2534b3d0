import ArchiveBrowser.FileSystem.Resolution
import ArchiveBrowser.Proofs.FileSystem.Names
import ArchiveBrowser.Proofs.FileSystem.Objects

/-!
# Following a path part by part

A name is followed to what a directory has under it, if that is no link and can be looked up.
Following pieces and then more pieces is following the second from where the first lead,
with the symbolic links that are left. A path that goes on from one that leads somewhere is
therefore followed from there.
-/

set_option autoImplicit false

namespace ArchiveBrowser.FileSystem

/-- What the first piece does: it fails whatever follows, or puts pieces in its place, and
those of a symbolic link use up one of the links. -/
theorem walk_cons (system : FileSystem) (links : Nat) (here : Location) (piece : Bytes) :
    (∃ error, ∀ rest, system.walk links here (piece :: rest) = .error error) ∨
      ∃ left next inserted, (left < links ∨ left = links ∧ inserted = []) ∧
        ∀ rest, system.walk links here (piece :: rest) =
          system.walk left next (inserted ++ rest) := by
  simp only [walk]
  cases system.hindrance here piece with
  | some error => exact Or.inl ⟨error, fun rest => rfl⟩
  | none =>
      by_cases skipped : (piece.isEmpty || decide (piece = Path.Bytewise.current)) = true
      · simp only [skipped, if_true]
        exact Or.inr ⟨links, here, [], Or.inr ⟨rfl, rfl⟩, fun rest => rfl⟩
      · simp only [skipped, Bool.false_eq_true, if_false]
        by_cases upwards : piece = Path.Bytewise.parent
        · simp only [if_pos upwards]
          exact Or.inr ⟨links, here.dropLast, [], Or.inr ⟨rfl, rfl⟩, fun rest => rfl⟩
        · simp only [if_neg upwards]
          cases FileName.ofBytes? piece with
          | none => exact Or.inl ⟨_, fun rest => rfl⟩
          | some name =>
              cases held : system.objectAt? (here ++ [name]) with
              | none => exact Or.inl ⟨.notFound, fun rest => by simp only [held]⟩
              | some object =>
                  simp only [held]
                  cases object with
                  | barred error => exact Or.inl ⟨error, fun rest => rfl⟩
                  | linkTo target =>
                      cases links with
                      | zero => exact Or.inl ⟨_, fun rest => rfl⟩
                      | succ links =>
                          exact Or.inr ⟨links, startOf here target, Path.Bytewise.pieces target,
                            Or.inl (Nat.lt_succ_self links), fun rest => rfl⟩
                  | file | closed | directoryWith =>
                      exact Or.inr ⟨links, here ++ [name], [], Or.inr ⟨rfl, rfl⟩, fun rest => rfl⟩

/-- Where pieces lead somewhere, more pieces are followed from there. -/
theorem walk_append {system : FileSystem} {links : Nat} {here reached : Location}
    {pieces : List Bytes} (leads : system.walk links here pieces = .ok reached) :
    ∃ left, ∀ more, system.walk links here (pieces ++ more) = system.walk left reached more := by
  -- On the links first: the target of one may have more pieces than there were before it.
  induction links using Nat.strongRecOn generalizing here pieces with
  | ind links fewerIh =>
      induction pieces generalizing here with
      | nil =>
          rw [walk] at leads
          cases leads
          exact ⟨links, fun more => rfl⟩
      | cons piece rest ih =>
          rcases walk_cons system links here piece with failed | moved
          · obtain ⟨error, failed⟩ := failed
            rw [failed] at leads
            cases leads
          · obtain ⟨left, next, inserted, decreases, moved⟩ := moved
            rw [moved] at leads
            rcases decreases with fewer | same
            · obtain ⟨still, goes⟩ := fewerIh left fewer leads
              refine ⟨still, fun more => ?_⟩
              rw [List.cons_append, moved, ← List.append_assoc, goes]
            · obtain ⟨rfl, rfl⟩ := same
              obtain ⟨still, goes⟩ := ih leads
              refine ⟨still, fun more => ?_⟩
              rw [List.cons_append, moved, List.nil_append, goes]

theorem hindrance_of_nowhere {system : FileSystem} {here : Location} (piece : Bytes)
    (nowhere : system.accessAt? here = none) :
    system.hindrance here piece = some .notADirectory := by
  rw [hindrance, nowhere]

theorem hindrance_of_directory {system : FileSystem} {here : Location}
    (directory : system.objectAt? here = some .directory) (piece : Bytes) :
    system.hindrance here piece = none := by
  rw [hindrance, access_at_eq_some.mpr directory]
  exact ite_self _

theorem hindrance_nil {system : FileSystem} {here : Location}
    (directory : (system.accessAt? here).isSome = true) : system.hindrance here [] = none := by
  obtain ⟨access, held⟩ := Option.isSome_iff_exists.mp directory
  rw [hindrance, held]
  rfl

theorem walk_nil_cons {system : FileSystem} {here : Location}
    (directory : (system.accessAt? here).isSome = true) (links : Nat) (rest : List Bytes) :
    system.walk links here ([] :: rest) = system.walk links here rest := by
  rw [walk, hindrance_nil directory]
  rfl

theorem walk_of_hindrance {system : FileSystem} {here : Location} {piece : Bytes}
    {error : OsError} (hindered : system.hindrance here piece = some error) (links : Nat)
    (rest : List Bytes) : system.walk links here (piece :: rest) = .error error := by
  rw [walk, hindered]

theorem walk_name {system : FileSystem} {here : Location} {name : FileName} {object : Object}
    (clear : system.hindrance here name.bytes = none)
    (held : system.objectAt? (here ++ [name]) = some object)
    (noLink : ∀ target, object ≠ .linkTo target) (noBar : ∀ error, object ≠ .barred error)
    (links : Nat) (rest : List Bytes) :
    system.walk links here (name.bytes :: rest) = system.walk links (here ++ [name]) rest := by
  have plain := name.is_legal.toIsPlain
  rw [walk, clear, name.of_bytes_bytes]
  dsimp only
  rw [if_neg plain.no_stay, if_neg plain.not_parent]
  cases object with
  | linkTo target => exact absurd rfl (noLink target)
  | barred error => exact absurd rfl (noBar error)
  | file | closed | directoryWith => simp only [held]

theorem walk_barred {system : FileSystem} {here : Location} {name : FileName} {error : OsError}
    (clear : system.hindrance here name.bytes = none)
    (held : system.objectAt? (here ++ [name]) = some (.barred error)) (links : Nat)
    (rest : List Bytes) : system.walk links here (name.bytes :: rest) = .error error := by
  have plain := name.is_legal.toIsPlain
  rw [walk, clear, name.of_bytes_bytes]
  dsimp only
  rw [if_neg plain.no_stay, if_neg plain.not_parent]
  simp only [held]

/-- The error for a piece under which a directory has nothing depends on the piece alone. -/
theorem walk_absent {system : FileSystem} {here : Location} {piece : Bytes}
    (plain : Path.Bytewise.IsPlain piece)
    (clear : system.hindrance here piece = none)
    (nothing : ∀ name : FileName, piece = name.bytes → system.objectAt? (here ++ [name]) = none)
    (links : Nat) (rest : List Bytes) :
    system.walk links here (piece :: rest) =
      .error (if FileName.limit < piece.length then .nameTooLong else .notFound) := by
  rw [walk, clear]
  dsimp only
  rw [if_neg plain.no_stay, if_neg plain.not_parent]
  cases read : FileName.ofBytes? piece with
  | none => rfl
  | some name =>
      obtain rfl := FileName.bytes_of_of_bytes read
      have short : ¬FileName.limit < name.bytes.length := Nat.not_lt.mpr name.is_legal.short
      have absent := nothing name rfl
      rw [if_neg short]
      simp only [absent]

theorem walk_no_name {system : FileSystem} {here : Location} {piece : Bytes}
    (plain : Path.Bytewise.IsPlain piece)
    (nothing : ∀ name : FileName, piece = name.bytes → system.objectAt? (here ++ [name]) = none)
    (links : Nat) (rest : List Bytes) :
    ∃ error, system.walk links here (piece :: rest) = .error error := by
  cases hindered : system.hindrance here piece with
  | some error => exact ⟨error, walk_of_hindrance hindered links rest⟩
  | none => exact ⟨_, walk_absent plain hindered nothing links rest⟩

/-- An empty piece asks for a directory, which the next piece does anyway. -/
theorem walk_skip_empty (system : FileSystem) (links : Nat) (here : Location)
    (pieces : List Bytes) {more : List Bytes} (nonempty : more ≠ []) :
    system.walk links here (pieces ++ [] :: more) = system.walk links here (pieces ++ more) := by
  induction links using Nat.strongRecOn generalizing here pieces with
  | ind links fewerIh =>
      induction pieces generalizing here with
      | nil =>
          obtain ⟨next, later, split⟩ := List.exists_cons_of_ne_nil nonempty
          rw [List.nil_append, List.nil_append, split]
          cases directory : system.accessAt? here with
          | none =>
              rw [walk_of_hindrance (hindrance_of_nowhere [] directory),
                walk_of_hindrance (hindrance_of_nowhere next directory)]
          | some access => exact walk_nil_cons (by rw [directory]; rfl) links (next :: later)
      | cons piece rest ih =>
          rw [List.cons_append, List.cons_append]
          rcases walk_cons system links here piece with failed | moved
          · obtain ⟨error, failed⟩ := failed
            rw [failed, failed]
          · obtain ⟨left, next, inserted, decreases, moved⟩ := moved
            rw [moved, moved]
            rcases decreases with fewer | same
            · rw [← List.append_assoc, ← List.append_assoc]
              exact fewerIh left fewer next (inserted ++ rest)
            · obtain ⟨rfl, rfl⟩ := same
              exact ih next

theorem ne_empty_of_locate {system : FileSystem} {path : String} {place : Location}
    (leads : system.locate path = .ok place) : path ≠ "" := by
  intro empty
  subst empty
  cases leads

/-- Where a path leads that may be followed. -/
def follow (system : FileSystem) (path : String) : Except OsError Location :=
  system.walk linkLimit (startOf system.workingDirectory (Bytes.ofText path))
    ((Path.pieces path).map Bytes.ofText)

theorem locate_eq (system : FileSystem) (path : String) :
    system.locate path =
      if path.toList.contains '\x00' then .error .unexpectedNul
      else if path.isEmpty then .error .notFound
      else if pathLimit < path.utf8ByteSize then .error .nameTooLong
      else system.follow path := by
  rw [locate, follow, ← Path.Bytewise.pieces_of_text]

theorem follow_of_locate {system : FileSystem} {path : String} {place : Location}
    (leads : system.locate path = .ok place) :
    '\x00' ∉ path.toList ∧ path.utf8ByteSize ≤ pathLimit ∧ system.follow path = .ok place := by
  rw [locate_eq] at leads
  split at leads
  · cases leads
  · rename_i clean
    split at leads
    · cases leads
    · split at leads
      · cases leads
      · rename_i short
        exact ⟨by simpa using clean, Nat.le_of_not_lt short, leads⟩

theorem locate_eq_follow {system : FileSystem} {path : String} (nonempty : path ≠ "")
    (clean : '\x00' ∉ path.toList) (short : path.utf8ByteSize ≤ pathLimit) :
    system.locate path = system.follow path := by
  rw [locate_eq, if_neg (by simpa using clean), if_neg (by simpa using nonempty),
    if_neg (Nat.not_lt.mpr short)]

/-- Where the working directory is the root, every path is followed from there. -/
theorem locate_from_root {system : FileSystem} {path : String} {pieces : List Bytes}
    (atRoot : system.workingDirectory = []) (nonempty : path ≠ "") (clean : '\x00' ∉ path.toList)
    (short : path.utf8ByteSize ≤ pathLimit) (cut : (Path.pieces path).map Bytes.ofText = pieces) :
    system.locate path = system.walk linkLimit [] pieces := by
  rw [locate_eq_follow nonempty clean short, follow, cut, atRoot, startOf, ite_self]

theorem find_eq_ok {system : FileSystem} {path : String} {object : Object} :
    system.find path = .ok object ↔
      ∃ place, system.locate path = .ok place ∧ system.objectAt? place = some object ∧
        ∀ error, object ≠ .barred error := by
  unfold find
  cases system.locate path with
  | error error => simp [bind, Except.bind]
  | ok place =>
      cases held : system.objectAt? place with
      | none => simp [bind, Except.bind, held]
      | some found => cases found <;> cases object <;> simp [bind, Except.bind, held]

theorem find_ne_barred (system : FileSystem) (path : String) (error : OsError) :
    system.find path ≠ .ok (.barred error) := by
  intro found
  obtain ⟨place, -, -, noBar⟩ := find_eq_ok.mp found
  exact noBar error rfl

theorem find_of_directory {system : FileSystem} {path : String} {place : Location}
    {access : Access} (located : system.locate path = .ok place)
    (directory : system.accessAt? place = some access) :
    system.find path = .ok (.directoryWith access) :=
  find_eq_ok.mpr ⟨place, located, access_at_eq_some.mp directory, fun _ => nofun⟩

theorem find_of_lost {system : FileSystem} {path : String} {error : OsError}
    (lost : system.locate path = .error error) : system.find path = .error error := by
  rw [find, lost]
  rfl

theorem locate_too_long {system : FileSystem} {path : String}
    (long : pathLimit < path.utf8ByteSize) : ∃ error, system.locate path = .error error := by
  rw [locate]
  split
  · exact ⟨_, rfl⟩
  · split
    · exact ⟨_, rfl⟩
    · exact ⟨_, rfl⟩

/-- A path that goes on from one that leads somewhere is followed from there. -/
theorem follow_push {system : FileSystem} {root next : String} {base : Location}
    (leads : system.locate root = .ok base) (relative : Path.isAbsolute next = false) :
    ∃ left, system.follow (Path.push root next) =
      system.walk left base ((Path.pieces next).map Bytes.ofText) := by
  have nonempty := ne_empty_of_locate leads
  obtain ⟨-, -, followed⟩ := follow_of_locate leads
  obtain ⟨kept, -, before, after⟩ := Path.pieces_push nonempty relative
  have start : startOf system.workingDirectory (Bytes.ofText (Path.push root next)) =
      startOf system.workingDirectory (Bytes.ofText root) := by
    rw [startOf, startOf, Path.Bytewise.is_absolute_of_text, Path.Bytewise.is_absolute_of_text,
      Path.is_absolute_push nonempty relative]
  unfold follow at followed ⊢
  rw [start, after, List.map_append]
  rcases before with same | same
  · rw [same] at followed
    obtain ⟨left, goes⟩ := walk_append followed
    exact ⟨left, goes _⟩
  · rw [same, List.map_append] at followed
    obtain ⟨left, goes⟩ := walk_append followed
    have more : (Path.pieces next).map Bytes.ofText ≠ [] := by
      simpa using Path.pieces_ne_nil next
    refine ⟨left, ?_⟩
    rw [← goes, List.append_assoc]
    exact (walk_skip_empty system linkLimit _ _ more).symm

theorem locate_push {system : FileSystem} {root next : String} {base : Location}
    (leads : system.locate root = .ok base) (relative : Path.isAbsolute next = false)
    (clean : '\x00' ∉ next.toList) (short : (Path.push root next).utf8ByteSize ≤ pathLimit) :
    ∃ left, system.locate (Path.push root next) =
      system.walk left base ((Path.pieces next).map Bytes.ofText) := by
  have nonempty := Path.push_ne_empty (ne_empty_of_locate leads) relative
  have rootClean := (follow_of_locate leads).1
  obtain ⟨left, followed⟩ := follow_push leads relative
  refine ⟨left, ?_⟩
  rw [locate_eq_follow nonempty (Path.not_mem_push (by decide) rootClean clean) short, followed]

theorem walk_padded {system : FileSystem} {links : Nat} {here place : Location} {path : String}
    (leads : system.walk links here ((Path.pieces path).map Bytes.ofText) = .ok place)
    (directory : (system.accessAt? place).isSome = true) (count : Nat) :
    system.walk links here ((Path.pieces (Path.padded path count)).map Bytes.ofText) =
      .ok place := by
  induction count with
  | zero => exact leads
  | succ count ih =>
      have cut := Path.pieces_append_separator (Path.padded path count) ""
      rw [String.append_empty] at cut
      obtain ⟨left, goes⟩ := walk_append ih
      have empty : (Path.pieces "").map Bytes.ofText = [[]] := by decide
      rw [Path.padded, cut, List.map_append, goes, empty, walk_nil_cons directory, walk]

/-- Slashes at the end change nothing about a path to a directory, until it is too long. -/
theorem locate_padded {system : FileSystem} {path : String} {place : Location} {count : Nat}
    (leads : system.locate path = .ok place)
    (directory : (system.accessAt? place).isSome = true)
    (short : path.utf8ByteSize + count ≤ pathLimit) :
    system.locate (Path.padded path count) = .ok place := by
  have nonempty := ne_empty_of_locate leads
  obtain ⟨clean, -, followed⟩ := follow_of_locate leads
  rw [locate_eq_follow (Path.padded_ne_empty nonempty count)
    (Path.not_mem_padded (by decide) clean count) (by rwa [Path.size_padded]), follow, startOf,
    Path.Bytewise.is_absolute_of_text, Path.is_absolute_padded nonempty,
    ← Path.Bytewise.is_absolute_of_text]
  exact walk_padded followed directory count

end ArchiveBrowser.FileSystem

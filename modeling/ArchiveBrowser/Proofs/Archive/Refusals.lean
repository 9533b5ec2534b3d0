import ArchiveBrowser.Archive.Zip
import ArchiveBrowser.Proofs.Archive.Entries
import ArchiveBrowser.Proofs.Zip.FileRecords
import Mathlib

/-!
# Which paths archives refuse

Listing a path, asking whether it is a file and opening it refuse the same paths with the same
error, and its text alone decides: a path has to start with a slash, and for a directory no
segment of it may be `..`. Whatever goes wrong below the archive is not told as an error; what
is not to be had gives an empty answer.
-/

set_option autoImplicit false

namespace ArchiveBrowser

namespace Archive

/-- The error that archives of a kind have for a path. -/
def Kind.refusal? (kind : Kind) (path : String) : Option Error :=
  if Path.isAbsolute path = false then some (.invalidPath path)
  else if kind = .directory ∧ ".." ∈ Path.pieces path then some (.pathTraversal path)
  else none

theorem Kind.refusal_invalid_path {kind : Kind} {path : String} :
    kind.refusal? path = some (.invalidPath path) ↔ Path.isAbsolute path = false := by
  unfold refusal?
  split
  · simp_all
  · split <;> simp_all

theorem Kind.refusal_path_traversal {kind : Kind} {path : String} :
    kind.refusal? path = some (.pathTraversal path) ↔
      kind = .directory ∧ Path.isAbsolute path = true ∧ ".." ∈ Path.pieces path := by
  unfold refusal?
  split
  · simp_all
  · split <;> simp_all

theorem Kind.refusal_is_precondition {kind : Kind} {path : String} {error : Error}
    (refused : kind.refusal? path = some error) :
    (error = .invalidPath path ∨ error = .pathTraversal path) ∧ error.isPrecondition = true := by
  unfold refusal? at refused
  split at refused
  · cases refused
    exact ⟨.inl rfl, rfl⟩
  · split at refused
    · cases refused
      exact ⟨.inr rfl, rfl⟩
    · cases refused

structure Refuses (archive : Archive) (path : String) (error : Error) : Prop where
  list : archive.list path = .error error
  is_file : archive.isFile path = .error error
  open_file : (archive.openFile path).value = .error error

structure Answered (archive : Archive) (path : String) : Prop where
  list : ∃ names, archive.list path = .ok names
  is_file : ∃ answer, archive.isFile path = .ok answer
  open_file : ∃ source, (archive.openFile path).value = .ok source

/-- One of the operations has this error for the path. -/
def Meets (archive : Archive) (path : String) (error : Error) : Prop :=
  archive.list path = .error error ∨ archive.isFile path = .error error ∨
    (archive.openFile path).value = .error error

/-- What errors there are at a path: the same for all operations, and only for its text. -/
structure Uniform (archive : Archive) (path : String) : Prop where
  together : archive.Answered path ∨ ∃ error, archive.Refuses path error
  invalid_path : archive.Refuses path (.invalidPath path) ↔ Path.isAbsolute path = false
  path_traversal : archive.Refuses path (.pathTraversal path) ↔
    archive.kind = .directory ∧ Path.isAbsolute path = true ∧ ".." ∈ Path.pieces path
  no_other : ∀ error, archive.Meets path error → archive.Refuses path error ∧
    (error = .invalidPath path ∨ error = .pathTraversal path) ∧ error.isPrecondition = true

variable {archive : Archive} {path : String}

theorem Answered.meets_nothing (answered : archive.Answered path) (error : Error) :
    ¬archive.Meets path error := by
  obtain ⟨⟨names, listed⟩, ⟨answer, asked⟩, source, opened⟩ := answered
  simp [Meets, listed, asked, opened]

theorem Refuses.eq_of_meets {error other : Error} (refuses : archive.Refuses path error)
    (meets : archive.Meets path other) : error = other := by
  unfold Meets at meets
  rw [refuses.list, refuses.is_file, refuses.open_file] at meets
  simpa using meets

/-- An archive that refuses just what its kind refuses has no other errors. -/
theorem uniform_of_refusal
    (refuses : ∀ error, archive.kind.refusal? path = some error → archive.Refuses path error)
    (answers : archive.kind.refusal? path = none → archive.Answered path) :
    archive.Uniform path := by
  have refused_of_meets : ∀ error, archive.Meets path error →
      archive.kind.refusal? path = some error := by
    intro error meets
    cases refused : archive.kind.refusal? path with
    | none => exact absurd meets ((answers refused).meets_nothing error)
    | some own => rw [(refuses own refused).eq_of_meets meets]
  have refuses_iff : ∀ error, archive.Refuses path error ↔
      archive.kind.refusal? path = some error := by
    intro error
    constructor
    · intro refusing
      exact refused_of_meets error (.inl refusing.list)
    · exact refuses error
  constructor
  · cases refused : archive.kind.refusal? path with
    | none => exact .inl (answers refused)
    | some error => exact .inr ⟨error, refuses error refused⟩
  · exact (refuses_iff _).trans Kind.refusal_invalid_path
  · exact (refuses_iff _).trans Kind.refusal_path_traversal
  · intro error meets
    have refused := refused_of_meets error meets
    exact ⟨refuses error refused, Kind.refusal_is_precondition refused⟩

end Archive

namespace ZipArchive

variable {zip : ZipArchive} {path : String}

theorem uniform (zip : ZipArchive) (path : String) : zip.toArchive.Uniform path := by
  have kind : zip.toArchive.kind = .zip := rfl
  cases absolute : Path.isAbsolute path with
  | false =>
      apply Archive.uniform_of_refusal
      · intro error refused
        rw [Archive.Kind.refusal?, if_pos absolute] at refused
        cases refused
        constructor
        · exact if_neg (by simp [absolute])
        · exact if_neg (by simp [absolute])
        · change (zip.openFile path).value = _
          rw [openFile, contents, if_neg (by simp [absolute])]
          rfl
      · intro answered
        rw [Archive.Kind.refusal?, if_pos absolute] at answered
        cases answered
  | true =>
      apply Archive.uniform_of_refusal
      · intro error refused
        rw [Archive.Kind.refusal?, if_neg (by simp [absolute]), kind, if_neg (by simp)] at refused
        cases refused
      · intro
        constructor
        · exact ⟨_, if_pos absolute⟩
        · exact ⟨_, is_file_eq absolute⟩
        · exact ⟨_, open_file_value absolute⟩

end ZipArchive

namespace DirectoryArchive

variable {directory : DirectoryArchive} {path target : String}

theorem answered_of_resolved (resolved : directory.resolve path = .ok target) :
    directory.toArchive.Answered path where
  list := ⟨_, list_of_resolved resolved⟩
  is_file := ⟨_, is_file_of_resolved resolved⟩
  open_file := ⟨_, open_file_of_resolved resolved⟩

theorem refuses_of_refused {error : Error} (refused : directory.resolve path = .error error) :
    directory.toArchive.Refuses path error := by
  constructor
  · exact list_of_refused refused
  · change directory.isFile path = _
    rw [isFile, refused]
    rfl
  · change (directory.openFile path).value = _
    rw [openFile, refused]
    rfl

theorem uniform (directory : DirectoryArchive) (path : String) :
    directory.toArchive.Uniform path := by
  have kind : directory.toArchive.kind = .directory := rfl
  apply Archive.uniform_of_refusal
  · intro error refused
    apply refuses_of_refused
    rw [kind] at refused
    rcases directory.resolve_cases path with
      ⟨relative, same⟩ | ⟨absolute, upwards, same⟩ | ⟨absolute, inside, rest, -, -, same⟩
    · rw [Archive.Kind.refusal_invalid_path.mpr relative] at refused
      rw [same, Option.some.inj refused]
    · rw [Archive.Kind.refusal_path_traversal.mpr ⟨rfl, absolute, upwards⟩] at refused
      rw [same, Option.some.inj refused]
    · rw [Archive.Kind.refusal?, if_neg (by simp [absolute]), if_neg (by simp [inside])] at refused
      cases refused
  · intro accepted
    rw [kind] at accepted
    rcases directory.resolve_cases path with
      ⟨relative, -⟩ | ⟨absolute, upwards, -⟩ | ⟨-, -, rest, -, -, resolved⟩
    · rw [Archive.Kind.refusal_invalid_path.mpr relative] at accepted
      cases accepted
    · rw [Archive.Kind.refusal_path_traversal.mpr ⟨rfl, absolute, upwards⟩] at accepted
      cases accepted
    · exact answered_of_resolved resolved

end DirectoryArchive

namespace SampleRefusals

def table : Zip.Table where
  names := ["a", "b"]
  contents entry := if entry = 1 then .error (.undecodable .checksumMismatch) else .ok []

def zip : ZipArchive :=
  { sourceName := "sample.zip", table, index := ZipArchive.indexOf table.names }

def top : FileName := ⟨Bytes.ofText "e", by decide⟩

def dangling : FileName := ⟨Bytes.ofText "m", by decide⟩

def secret : FileName := ⟨Bytes.ofText "i", by decide⟩

def unread : FileName := ⟨Bytes.ofText "q", by decide⟩

/-- There are a link to nothing, a file that may not be read, and a directory with a file in it
that may not be read. -/
def directory : DirectoryArchive where
  system :=
    { objects := [([top], .directory), ([top, dangling], .link "gone"),
        ([top, secret], .closed .permissionDenied),
        ([top, unread], .directoryWith { listing := .refused .permissionDenied, search := none }),
        ([top, unread, secret], .file [])]
      workingDirectory := []
      distinct := by decide }
  root := "e"

theorem lost : directory.system.find "e/m" = .error .notFound := by
  have clean : '\x00' ∉ "e/m".toList := by decide
  have cut : (Path.pieces "e/m").map Bytes.ofText = [[0x65], [0x6d]] := by decide
  apply FileSystem.find_of_lost
  rw [FileSystem.locate_from_root rfl (by decide) clean (by decide) cut]
  cbv

theorem closed : directory.system.find "e/i" = .ok (.closed .permissionDenied) := by
  have clean : '\x00' ∉ "e/i".toList := by decide
  have cut : (Path.pieces "e/i").map Bytes.ofText = [[0x65], [0x69]] := by decide
  have found : directory.system.locate "e/i" = .ok [top, secret] := by
    rw [FileSystem.locate_from_root rfl (by decide) clean (by decide) cut]
    cbv
  exact FileSystem.find_eq_ok.mpr ⟨_, found, by decide, by simp⟩

theorem there : directory.system.isDirectory "e" = true := by
  have clean : '\x00' ∉ "e".toList := by decide
  have cut : (Path.pieces "e").map Bytes.ofText = [[0x65]] := by decide
  have found : directory.system.locate "e" = .ok [top] := by
    rw [FileSystem.locate_from_root rfl (by decide) clean (by decide) cut]
    cbv
  exact FileSystem.is_directory_eq_true.mpr ⟨_, FileSystem.find_of_directory found rfl⟩

end SampleRefusals

end ArchiveBrowser

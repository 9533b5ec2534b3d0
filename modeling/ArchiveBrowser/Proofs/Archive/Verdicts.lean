import ArchiveBrowser.Proofs.Archive.Files
import ArchiveBrowser.Proofs.Archive.Resolving
import ArchiveBrowser.Proofs.Zip.FileRecords
import Mathlib

/-!
# What counts as a file and what opens

An archive is asked by one question whether a path names a file and by another to open it. In a
directory each of them asks the file system several times, and still they agree on whatever is
there, except for what the file system does not open. In a container the first asks the index
alone, and so a file that cannot be decoded is a file that does not open; that is the only way in
which they differ.
-/

set_option autoImplicit false

namespace ArchiveBrowser

namespace ZipArchive

variable {zip : ZipArchive} {path : String}

/-- What the decoder makes of the entry that the index has for a path. -/
def decoded? (zip : ZipArchive) (path : String) : Option (Except Zip.EntryFlaw Bytes) :=
  (zip.index.payload? path).map zip.table.contents

/-- What opens: the bytes of the entry, if it can be decoded. -/
def opened? (zip : ZipArchive) (path : String) : Option Source :=
  (zip.decoded? path).bind fun decoded => decoded.toOption.map Source.ofBytes

theorem is_file_of_decoded (absolute : Path.isAbsolute path = true) :
    zip.toArchive.isFile path = .ok (zip.decoded? path).isSome := by
  change zip.isFile path = _
  rw [is_file_eq absolute, decoded?, Option.isSome_map]

theorem open_file_of_decoded (absolute : Path.isAbsolute path = true) :
    (zip.toArchive.openFile path).value = .ok (zip.opened? path) := by
  change (zip.openFile path).value = _
  rw [open_file_value absolute, opened?, decoded?, Option.bind_map]
  rfl

theorem decoded_eq_some {outcome : Except Zip.EntryFlaw Bytes} :
    zip.decoded? path = some outcome ↔
      ∃ entry, zip.index.payload? path = some entry ∧ zip.table.contents entry = outcome :=
  Option.map_eq_some_iff

theorem opened_eq_some {source : Source} :
    zip.opened? path = some source ↔
      ∃ bytes, zip.decoded? path = some (.ok bytes) ∧ source = .ofBytes bytes := by
  unfold opened?
  cases zip.decoded? path with
  | none => simp
  | some outcome => cases outcome <;> simp [Except.toOption, eq_comm]

/-- A file that does not open has an entry that cannot be decoded. -/
theorem file_not_opened_iff :
    (zip.decoded? path).isSome = true ∧ zip.opened? path = none ↔
      ∃ flaw, zip.decoded? path = some (.error flaw) := by
  unfold opened?
  cases zip.decoded? path with
  | none => simp
  | some outcome => cases outcome <;> simp [Except.toOption]

end ZipArchive

/-- A path of a directory that opens is a file, and a file does not open just if the file system
refuses to open it; where it refuses nothing, a path is a file just if it opens. Where everything
there is is in a directory, what opens are the bytes of the file to which the path leads. A path
of a container that opens is a file, and a file does not open just if its entry cannot be
decoded. -/
theorem files_open_unless_undecodable {path : String} {place : List String}
    (cut : Path.segments? path = some place) :
    (∀ directory : DirectoryArchive, ".." ∉ place → ∃ target answer opened,
        directory.resolve path = .ok target ∧
        directory.toArchive.isFile path = .ok answer ∧
        (directory.toArchive.openFile path).value = .ok opened ∧
        (opened.isSome = true → answer = true) ∧
        (directory.system.NothingClosed → (answer = true ↔ opened.isSome = true)) ∧
        (answer = true ∧ opened = none ↔
          ∃ error, directory.system.find target = .ok (.closed error)) ∧
        (directory.system.Connected →
          opened = (directory.system.bytesAt? target).map Source.ofBytes)) ∧
      ∀ zip : ZipArchive, ∃ answer opened,
        zip.toArchive.isFile path = .ok answer ∧
        (zip.toArchive.openFile path).value = .ok opened ∧
        (opened.isSome = true → answer = true) ∧
        (∀ source, opened = some source ↔ ∃ entry bytes,
          zip.index.payload? path = some entry ∧ zip.table.contents entry = .ok bytes ∧
            source = .ofBytes bytes) ∧
        (answer = true ∧ opened = none ↔ ∃ entry flaw,
          zip.index.payload? path = some entry ∧ zip.table.contents entry = .error flaw) := by
  have absolute := Path.absolute_of_segments cut
  constructor
  · intro directory inside
    obtain ⟨target, resolved⟩ := (DirectoryArchive.resolves_iff cut).mpr inside
    exact ⟨target, _, _, resolved, DirectoryArchive.is_file_of_resolved resolved,
      DirectoryArchive.open_file_of_resolved resolved, FileSystem.is_file_of_opened,
      fun opens => by rw [FileSystem.is_file_eq opens target],
      FileSystem.file_not_opened_iff, fun connected => FileSystem.opened_eq connected target⟩
  · intro zip
    refine ⟨_, _, ZipArchive.is_file_of_decoded absolute,
      ZipArchive.open_file_of_decoded absolute, ?_, ?_, ?_⟩
    · intro opens
      obtain ⟨source, opened⟩ := Option.isSome_iff_exists.mp opens
      obtain ⟨bytes, decoded, -⟩ := ZipArchive.opened_eq_some.mp opened
      rw [decoded]
      rfl
    · intro source
      rw [ZipArchive.opened_eq_some]
      simp only [ZipArchive.decoded_eq_some]
      constructor
      · rintro ⟨bytes, ⟨entry, indexed, decoded⟩, same⟩
        exact ⟨entry, bytes, indexed, decoded, same⟩
      · rintro ⟨entry, bytes, indexed, decoded, same⟩
        exact ⟨bytes, ⟨entry, indexed, decoded⟩, same⟩
    · rw [ZipArchive.file_not_opened_iff]
      simp only [ZipArchive.decoded_eq_some]
      exact exists_comm

namespace SampleVerdicts

def top : FileName := ⟨Bytes.ofText "g", by decide⟩

def file : FileName := ⟨Bytes.ofText "h", by decide⟩

def link : FileName := ⟨Bytes.ofText "k", by decide⟩

def circle : FileName := ⟨Bytes.ofText "o", by decide⟩

/-- There are a link to the file and one to itself. -/
def directory : DirectoryArchive where
  system :=
    { objects := [([top], .directory), ([top, file], .file [1]), ([top, link], .link "h"),
        ([top, circle], .link "o")]
      workingDirectory := []
      distinct := by decide }
  root := "g"

def table : Zip.Table where
  names := ["k", "o"]
  contents entry := if entry = 1 then .error (.undecodable .checksumMismatch) else .ok [2]

def zip : ZipArchive :=
  { sourceName := "sample.zip", table, index := ZipArchive.indexOf table.names }

theorem connected : directory.system.Connected :=
  FileSystem.connected_of_objects (by decide)

theorem nothing_closed : directory.system.NothingClosed := by
  intro place error held
  induction place using List.reverseRecOn with
  | nil => cases held
  | append_singleton before name =>
      have member := (FileSystem.object_at_snoc _ before name _).mp held
      simp [directory, Object.directory, Object.link] at member

end SampleVerdicts

open SampleVerdicts in
theorem sample_files_open :
    Path.segments? "/k" = some ["k"] ∧ ".." ∉ ["k"] ∧ directory.system.Connected ∧
      directory.system.NothingClosed ∧
      directory.toArchive.isFile "/k" = .ok true ∧
      (directory.toArchive.openFile "/k").value = .ok (some (.ofBytes [1])) ∧
      (zip.toArchive.openFile "/k").value = .ok (some (.ofBytes [2])) ∧
      Path.segments? "/o" = some ["o"] ∧ ".." ∉ ["o"] ∧
      directory.toArchive.isFile "/o" = .ok false ∧
      (directory.toArchive.openFile "/o").value = .ok none ∧
      zip.index.payload? "/o" = some 1 ∧
      zip.table.contents 1 = .error (.undecodable .checksumMismatch) ∧
      zip.toArchive.isFile "/o" = .ok true ∧ (zip.toArchive.openFile "/o").value = .ok none := by
  have cut : Path.segments? "/k" = some ["k"] := rfl
  have circleCut : Path.segments? "/o" = some ["o"] := rfl
  have led : directory.resolve "/k" = .ok "g/k" := rfl
  have circling : directory.resolve "/o" = .ok "g/o" := rfl
  have there : directory.system.bytesAt? "g/k" = some [1] := by cbv
  have nowhere : directory.system.bytesAt? "g/o" = none := by cbv
  obtain ⟨directories, zips⟩ := files_open_unless_undecodable cut
  obtain ⟨target, answer, opened, resolved, asked, opens, -, agree, -, held⟩ :=
    directories directory (by decide)
  obtain rfl : "g/k" = target := Except.ok.inj (led.symm.trans resolved)
  rw [there] at held
  rw [held connected] at opens agree
  rw [(agree nothing_closed).mpr rfl] at asked
  obtain ⟨-, zipOpened, -, zipOpens, -, decoded, -⟩ := zips zip
  rw [(decoded _).mpr ⟨0, [2], rfl, rfl, rfl⟩] at zipOpens
  obtain ⟨directories, zips⟩ := files_open_unless_undecodable circleCut
  obtain ⟨target, noFile, nothing, resolved, askedAlso, opensAlso, -, agree, -, held⟩ :=
    directories directory (by decide)
  obtain rfl : "g/o" = target := Except.ok.inj (circling.symm.trans resolved)
  rw [nowhere] at held
  rw [held connected] at opensAlso agree
  have isNone : noFile = false := by simpa using agree nothing_closed
  rw [isNone] at askedAlso
  obtain ⟨isFile, undecoded, zipAsked, notOpened, -, -, broken⟩ := zips zip
  obtain ⟨rfl, rfl⟩ := broken.mpr ⟨1, _, rfl, rfl⟩
  exact ⟨cut, by decide, connected, nothing_closed, asked, opens, zipOpens, circleCut, by decide,
    askedAlso, opensAlso, rfl, rfl, zipAsked, notOpened⟩

end ArchiveBrowser

import ArchiveBrowser.Command.List
import ArchiveBrowser.Proofs.Archive.Entries

/-!
# Which entries of a directory are marked as directories

Whether a path is that of a directory is made out from two answers: nothing is listed below it,
and it is no file. An empty directory answers so, but so does whatever leads nowhere. A mark is
therefore right for every entry that leads somewhere, and wrong for the others: links to nothing,
links that lead around in a circle, entries whose path is too long for the file system or whose
directory may not be searched, and entries whose names are no texts and are listed as others.
-/

set_option autoImplicit false

namespace ArchiveBrowser

namespace FileSystem

variable {system : FileSystem} {path : String} {place : Location}

theorem hindrance_of_entry {access : Access} (held : system.accessAt? place = some access)
    (name : FileName) : system.hindrance place name.bytes = access.search := by
  have nonempty := List.isEmpty_eq_false_iff.mpr name.is_legal.nonempty
  rw [hindrance, held]
  simp only [nonempty, Bool.false_eq_true, if_false]

/-- An entry that is no link is found at its path, if its directory may be searched and the path
is not too long. -/
theorem find_entry {name : FileName} {object : Object} (isText : name.IsText)
    (leads : system.locate path = .ok place) (clear : system.hindrance place name.bytes = none)
    (held : system.objectAt? (place ++ [name]) = some object)
    (noLink : ∀ target, object ≠ .linkTo target) (noBar : ∀ error, object ≠ .barred error)
    (short : (Path.push path name.text).utf8ByteSize ≤ pathLimit) :
    system.find (Path.push path name.text) = .ok object := by
  obtain ⟨left, followed⟩ := locate_entry leads name short
  rw [isText, walk_name clear held noLink noBar, walk] at followed
  exact find_eq_ok.mpr ⟨_, followed, held, noBar⟩

theorem find_unsearched {name : FileName} {error : OsError} (isText : name.IsText)
    (leads : system.locate path = .ok place)
    (hindered : system.hindrance place name.bytes = some error)
    (short : (Path.push path name.text).utf8ByteSize ≤ pathLimit) :
    system.find (Path.push path name.text) = .error error := by
  obtain ⟨left, followed⟩ := locate_entry leads name short
  rw [isText, walk_of_hindrance hindered] at followed
  exact find_of_lost followed

theorem find_too_long (long : pathLimit < path.utf8ByteSize) :
    ∃ error, system.find path = .error error := by
  obtain ⟨error, lost⟩ : ∃ error, system.locate path = .error error := locate_too_long long
  exact ⟨error, find_of_lost lost⟩

end FileSystem

namespace DirectoryArchive

variable {directory : DirectoryArchive} {path target : String}

theorem is_directory_of_resolved (resolved : directory.resolve path = .ok target) :
    directory.toArchive.isDirectory path = .ok !directory.system.isFile target := by
  have file := is_file_of_resolved resolved
  cases there : directory.system.isDirectory target with
  | false =>
      rw [Archive.is_directory_eq, list_of_no_directory resolved there, file]
      rfl
  | true =>
      have noFile : directory.system.isFile target = false := by
        rw [FileSystem.isFile, there, Bool.not_true, Bool.and_false]
      rw [Archive.is_directory_eq, list_of_resolved resolved, file, noFile]
      cases (directory.system.listing target).value <;> rfl

theorem marked_iff (resolved : directory.resolve path = .ok target) :
    directory.toArchive.isDirectory path = .ok true ↔
      (∃ access, directory.system.find target = .ok (.directoryWith access)) ∨
        ∃ error, directory.system.find target = .error error := by
  rw [is_directory_of_resolved resolved, Except.ok.injEq, Bool.not_eq_true', Bool.eq_false_iff,
    Ne, FileSystem.is_file_eq_true]
  cases directory.system.find target with
  | error error => simp
  | ok object => simp

/-- Every name that is listed is that of an entry, as it is shown, and the path of it in the
archive resolves to the path with that name in the directory. It is marked as a directory if
this path leads to one or leads nowhere. If the name is a text, then an entry that is itself a
directory is always marked, and one that is neither a directory nor a link only where its path is
too long or its directory may not be searched. -/
theorem marks_directories_and_lost {names : List String} {text : String}
    (listed : directory.toArchive.list path = .ok names) (member : text ∈ names) :
    ∃ holder place access name object mark,
      directory.resolve path = .ok holder ∧ directory.system.locate holder = .ok place ∧
        directory.system.accessAt? place = some access ∧ name.text = text ∧
        directory.system.objectAt? (place ++ [name]) = some object ∧
        directory.resolve (Path.child path text) = .ok (Path.push holder text) ∧
        directory.toArchive.isDirectory (Path.child path text) = .ok mark ∧
        (mark = true ↔
          (∃ within, directory.system.find (Path.push holder text) = .ok (.directoryWith within)) ∨
            ∃ error, directory.system.find (Path.push holder text) = .error error) ∧
        (name.IsText →
          ((∃ within, object = .directoryWith within) → mark = true) ∧
          ((∃ bytes, object = .file bytes) ∨ (∃ error, object = .closed error) →
            (mark = true ↔ FileSystem.pathLimit < (Path.push holder text).utf8ByteSize ∨
              access.search.isSome = true))) := by
  obtain ⟨holder, place, name, resolved, leads, there, rfl, entry⟩ := entry_of_listed listed member
  obtain ⟨access, within⟩ := Option.isSome_iff_exists.mp there
  obtain ⟨object, held⟩ := Option.isSome_iff_exists.mp entry
  have below := resolve_child resolved name.is_name
  have marked := marked_iff below
  rw [is_directory_of_resolved below, Except.ok.injEq] at marked
  refine ⟨holder, place, access, name, object, _, resolved, leads, within, rfl, held, below,
    is_directory_of_resolved below, marked, fun isText => ?_⟩
  have searched := FileSystem.hindrance_of_entry within name
  by_cases long : FileSystem.pathLimit < (Path.push holder name.text).utf8ByteSize
  · have lost := marked.mpr (.inr (FileSystem.find_too_long long))
    exact ⟨fun _ => lost, fun _ => ⟨fun _ => .inl long, fun _ => lost⟩⟩
  have short := Nat.le_of_not_lt long
  cases search : access.search with
  | some error =>
      rw [search] at searched
      have lost := marked.mpr (.inr ⟨_, FileSystem.find_unsearched isText leads searched short⟩)
      exact ⟨fun _ => lost, fun _ => ⟨fun _ => .inr rfl, fun _ => lost⟩⟩
  | none =>
      rw [search] at searched
      constructor
      · rintro ⟨own, rfl⟩
        exact marked.mpr (.inl
          ⟨own, FileSystem.find_entry isText leads searched held nofun nofun short⟩)
      · intro noDirectory
        -- Within the limit the entry is found, and so there is neither a directory nor nothing.
        have unmarked : ¬(!directory.system.isFile (Path.push holder name.text)) = true := by
          rw [marked]
          rcases noDirectory with ⟨bytes, rfl⟩ | ⟨error, rfl⟩ <;>
            simp [FileSystem.find_entry isText leads searched held nofun nofun short]
        simp [unmarked, long]

namespace SampleMarks

def top : FileName := ⟨Bytes.ofText "p", by decide⟩

def bare : FileName := ⟨Bytes.ofText "bare", by decide⟩

def file : FileName := ⟨Bytes.ofText "file", by decide⟩

def link : FileName := ⟨Bytes.ofText "link", by decide⟩

/-- In the directory are an empty directory, an empty file and a link to nothing. -/
def withLink : FileSystem where
  objects := [([top], .directory), ([top, bare], .directory), ([top, file], .file []),
    ([top, link], .link "gone")]
  workingDirectory := []
  distinct := by decide

def linked : DirectoryArchive := { system := withLink, root := "p" }

theorem located : linked.system.locate "p" = .ok [top] := by
  have clean : '\x00' ∉ "p".toList := by decide
  have cut : (Path.pieces "p").map Bytes.ofText = [[0x70]] := by decide
  rw [FileSystem.locate_from_root rfl (by decide) clean (by decide) cut]
  cbv

theorem lost : linked.system.find "p/link" = .error .notFound := by
  have clean : '\x00' ∉ "p/link".toList := by decide
  have cut : (Path.pieces "p/link").map Bytes.ofText = [[0x70], [0x6c, 0x69, 0x6e, 0x6b]] := by
    decide
  apply FileSystem.find_of_lost
  rw [FileSystem.locate_from_root rfl (by decide) clean (by decide) cut]
  cbv

theorem bare_text : bare.text = "bare" := FileName.text_of_bytes rfl

theorem file_text : file.text = "file" := FileName.text_of_bytes rfl

theorem link_text : link.text = "link" := FileName.text_of_bytes rfl

theorem eq_of_text {name own : FileName} {object : Object}
    (held : linked.system.objectAt? ([top] ++ [name]) = some object)
    (member : own ∈ [bare, file, link]) (same : name.text = own.text) : name = own := by
  have shown : linked.system.namesIn [top] = [bare, file, link] := by decide
  have texts : FileName.AreTexts [bare, file, link] := by
    intro name member
    rw [FileName.is_text_iff]
    simp only [List.mem_cons, List.not_mem_nil, or_false] at member
    rcases member with rfl | rfl | rfl
    · exact ⟨"bare", rfl⟩
    · exact ⟨"file", rfl⟩
    · exact ⟨"link", rfl⟩
  have inside : name ∈ [bare, file, link] := by
    rw [← shown, FileSystem.mem_names_in, held]
    rfl
  exact FileName.eq_of_texts (texts name inside) (texts own member) same

theorem names_listed : linked.toArchive.list "/" = .ok ["bare", "file", "link"] := by
  have shown : linked.system.shown [top] = [bare, file, link] := by decide
  rw [list_of_located rfl located rfl, shown, List.map_cons, List.map_cons, List.map_cons,
    bare_text, file_text, link_text, List.map_nil]

end SampleMarks

open SampleMarks in
theorem sample_marks :
    linked.toArchive.list "/" = .ok ["bare", "file", "link"] ∧ "bare" ∈ ["bare", "file", "link"] ∧
      "file" ∈ ["bare", "file", "link"] ∧ bare.IsText ∧ file.IsText ∧
      linked.system.objectAt? [top, bare] = some .directory ∧
      linked.system.objectAt? [top, file] = some (.file []) ∧
      linked.toArchive.isDirectory "/bare" = .ok true ∧
      linked.toArchive.isDirectory "/file" = .ok false := by
  have bareIsText : bare.IsText := FileName.is_text_iff.mpr ⟨"bare", rfl⟩
  have fileIsText : file.IsText := FileName.is_text_iff.mpr ⟨"file", rfl⟩
  have bareListed : "bare" ∈ ["bare", "file", "link"] := by decide
  have fileListed : "file" ∈ ["bare", "file", "link"] := by decide
  have bareHeld : linked.system.objectAt? [top, bare] = some .directory := by decide
  have fileHeld : linked.system.objectAt? [top, file] = some (.file []) := by decide
  have held : linked.system.accessAt? [top] = some .full := rfl
  refine ⟨names_listed, bareListed, fileListed, bareIsText, fileIsText, bareHeld, fileHeld, ?_, ?_⟩
  · obtain ⟨holder, place, access, name, object, mark, resolved, leads, within, same, entry, -,
      answer, -, whole⟩ := marks_directories_and_lost names_listed bareListed
    obtain rfl : "p" = holder := Except.ok.inj resolved
    obtain rfl : [top] = place := Except.ok.inj (located.symm.trans leads)
    obtain rfl : name = bare := eq_of_text entry (by decide) (same.trans bare_text.symm)
    obtain rfl : object = .directory := Option.some.inj (entry.symm.trans bareHeld)
    rw [(whole bareIsText).1 ⟨_, rfl⟩] at answer
    exact answer
  · obtain ⟨holder, place, access, name, object, mark, resolved, leads, within, same, entry, -,
      answer, -, whole⟩ := marks_directories_and_lost names_listed fileListed
    obtain rfl : "p" = holder := Except.ok.inj resolved
    obtain rfl : [top] = place := Except.ok.inj (located.symm.trans leads)
    obtain rfl : name = file := eq_of_text entry (by decide) (same.trans file_text.symm)
    obtain rfl : object = .file [] := Option.some.inj (entry.symm.trans fileHeld)
    obtain rfl : access = .full := Option.some.inj (within.symm.trans held)
    have unmarked : mark = false := by
      rw [Bool.eq_false_iff, Ne, (whole fileIsText).2 (.inl ⟨[], rfl⟩)]
      have short : ¬FileSystem.pathLimit < (Path.push "p" "file").utf8ByteSize := by decide
      exact not_or_intro short Bool.false_ne_true
    rw [unmarked] at answer
    exact answer

open SampleMarks in
/-- A link to nothing is listed and marked as a directory, though it leads to none. -/
theorem link_to_nothing_marked :
    linked.toArchive.list "/" = .ok ["bare", "file", "link"] ∧
      linked.resolve (Path.child "/" "link") = .ok "p/link" ∧
      linked.system.find "p/link" = .error .notFound ∧
      ¬(linked.toArchive.isDirectory (Path.child "/" "link") = .ok true ↔
        linked.system.find "p/link" = .ok .directory) ∧
      (Command.entriesOf linked.toArchive "/" ["link"]).value = .ok [⟨"link", "/link", true⟩] := by
  have resolved : linked.resolve (Path.child "/" "link") = .ok "p/link" := rfl
  have marked : linked.toArchive.isDirectory (Path.child "/" "link") = .ok true :=
    (marked_iff resolved).mpr (.inr ⟨_, lost⟩)
  refine ⟨names_listed, resolved, lost, ?_, ?_⟩
  · rw [marked, lost]
    simp
  · rw [Command.entries_of_cons, marked]
    rfl

end DirectoryArchive

end ArchiveBrowser

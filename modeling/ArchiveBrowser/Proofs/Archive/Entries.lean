import ArchiveBrowser.Proofs.Archive.Answers
import ArchiveBrowser.Proofs.Archive.Resolving
import ArchiveBrowser.Proofs.Path.Child

/-!
# The entries of a directory

What a directory lists is got from the paths of its entries, by taking off them the path of the
directory. What is left is the name of the entry, however the root and the path are spelt; it is
shown as a text, in which malformed bytes are replaced. The path of a listed name inside the
archive resolves to the path of the entry, if the name is that of an entry as it is shown.
-/

set_option autoImplicit false

namespace ArchiveBrowser

/-- Reading comes to an entry of this name, if the directory has one. -/
def Listing.Shows : Listing → FileName → Prop
  | .complete, _ => True
  | .brokenOff seen, name => name ∈ seen
  | .refused _, _ => False

namespace FileSystem

variable {system : FileSystem} {path : String} {place : Location}

/-- There is an entry of this name at a place, and reading the directory comes to it. -/
def Shows (system : FileSystem) (place : Location) (name : FileName) : Prop :=
  (system.objectAt? (place ++ [name])).isSome = true ∧
    ∃ access, system.accessAt? place = some access ∧ access.listing.Shows name

/-- The names that reading the directory at a place comes to. -/
def shown (system : FileSystem) (place : Location) : List FileName :=
  (system.entriesAt place).toOption.getD []

theorem mem_shown {name : FileName} :
    name ∈ system.shown place ↔ system.Shows place name := by
  rw [Shows, ← mem_names_in, shown, entriesAt]
  cases system.accessAt? place with
  | none => simp [Except.toOption]
  | some access => cases same : access.listing <;> simp [Except.toOption, Listing.Shows, same]

theorem nodup_shown : (system.shown place).Nodup := by
  have once := system.nodup_names_in place
  rw [shown, entriesAt]
  cases system.accessAt? place with
  | none => exact List.nodup_nil
  | some access =>
      cases same : access.listing with
      | complete => simpa [Except.toOption, same] using once
      | brokenOff seen => simpa [Except.toOption, same] using once.filter _
      | refused error => simp [Except.toOption, same]

theorem shown_of_complete {access : Access} (directory : system.accessAt? place = some access)
    (complete : access.listing = .complete) : system.shown place = system.namesIn place := by
  rw [shown, entriesAt, directory]
  simp only [complete]
  rfl

theorem listing_of_directory (located : system.locate path = .ok place)
    (directory : (system.accessAt? place).isSome = true) :
    (system.listing path).value =
      (system.shown place).map fun name =>
        Path.Bytewise.push (Bytes.ofText path) name.bytes := by
  obtain ⟨access, held⟩ := Option.isSome_iff_exists.mp directory
  have there : system.isDirectory path = true :=
    is_directory_eq_true.mpr ⟨access, find_of_directory located held⟩
  have asked : system.locate path >>= system.entriesAt = system.entriesAt place := by
    rw [located]
    rfl
  rw [listing, if_pos there, asked, shown]
  cases system.entriesAt place <;> rfl

theorem listing_of_no_directory (elsewhere : system.isDirectory path = false) :
    system.listing path = .quiet [] := by
  rw [listing, elsewhere]
  rfl

theorem located_of_directory (there : system.isDirectory path = true) :
    ∃ place, system.locate path = .ok place ∧ (system.accessAt? place).isSome = true := by
  obtain ⟨access, found⟩ := is_directory_eq_true.mp there
  obtain ⟨place, located, held, -⟩ := find_eq_ok.mp found
  refine ⟨place, located, ?_⟩
  rw [access_at_eq_some.mpr held]
  rfl

/-- From a directory an entry of it is found by following its name as it is shown. -/
theorem locate_entry (leads : system.locate path = .ok place) (name : FileName)
    (short : (Path.push path name.text).utf8ByteSize ≤ pathLimit) :
    ∃ left, system.locate (Path.push path name.text) =
      system.walk left place [Bytes.ofText name.text] := by
  obtain ⟨left, followed⟩ := locate_push leads name.is_name.relative name.clean short
  rw [Path.pieces_of_free name.is_name.free] at followed
  exact ⟨left, followed⟩

end FileSystem

namespace DirectoryArchive

variable {directory : DirectoryArchive} {path target : String} {place : Location}

/-- The path of a child inside the archive resolves to the child of what its directory does. -/
theorem resolve_child (resolved : directory.resolve path = .ok target) {text : String}
    (name : Path.IsName text) :
    directory.resolve (Path.child path text) = .ok (Path.push target text) := by
  obtain ⟨absolute, inside, rfl⟩ := resolves_to_iff.mp resolved
  obtain ⟨front, slashes, split⟩ := Path.eq_append_trimmed path
  have nonempty : path ≠ "" := by
    rintro rfl
    cases absolute
  have pieces : ".." ∉ Path.pieces (Path.child path text) := by
    obtain ⟨kept, -, before, after⟩ := Path.pieces_push nonempty name.relative
    rw [← Path.push_eq_child nonempty name.relative, after, Path.pieces_of_free name.free]
    have notAbove : ".." ∉ kept := by
      rcases before with same | same <;> rw [same] at inside
      · exact inside
      · exact fun upwards => inside (List.mem_append_left _ upwards)
    simpa [notAbove] using Ne.symm name.not_parent
  refine resolves_to_iff.mpr ⟨Path.is_absolute_child absolute text, pieces, ?_⟩
  have textNonempty := name.nonempty
  by_cases bare : Path.trimmed path = ""
  · -- A path of slashes alone ends in one, which the name is put behind.
    rw [bare, String.append_empty] at split
    have ends : Path.endsWithSeparator path = true := by
      have letters : path.toList ≠ [] := by simpa using nonempty
      have last : path.toList.getLast letters = Path.separator := by
        apply slashes
        rw [← split]
        exact List.getLast_mem letters
      rw [Path.endsWithSeparator, List.getLast?_eq_some_getLast letters, last]
      rfl
    have trimmed : Path.trimmed (Path.child path text) = text := by
      rw [Path.child_of_ends ends, split]
      exact Path.trimmed_append slashes name.relative
    rw [trimmed, if_pos bare, if_neg textNonempty]
  · have relative := Path.relative_trimmed path
    have trimmed : Path.trimmed (Path.child path text) =
        Path.child (Path.trimmed path) text := by
      have below : Path.isAbsolute (Path.child (Path.trimmed path) text) = false := by
        rw [Path.is_absolute_child_eq bare, relative]
      have parts : Path.child path text = front ++ Path.child (Path.trimmed path) text := by
        rw [← Path.child_append front bare, ← split]
      rw [parts]
      exact Path.trimmed_append slashes below
    have further : Path.child (Path.trimmed path) text ≠ "" := by
      rw [← Path.push_eq_child bare name.relative]
      exact Path.push_ne_empty bare name.relative
    rw [trimmed, if_neg bare, if_neg further]
    exact (Path.push_child directory.root bare relative name.relative).symm

theorem shown_name_of_push (name : FileName) :
    shownName target (Path.Bytewise.push (Bytes.ofText target) name.bytes) = name.text := by
  rw [shownName, Path.Bytewise.relative_push _ name.is_legal.toIsName]
  rfl

theorem list_of_located (resolved : directory.resolve path = .ok target)
    (located : directory.system.locate target = .ok place)
    (there : (directory.system.accessAt? place).isSome = true) :
    directory.toArchive.list path = .ok ((directory.system.shown place).map FileName.text) := by
  rw [list_of_resolved resolved, FileSystem.listing_of_directory located there, List.map_map]
  exact congrArg Except.ok (List.map_congr_left fun name _ => shown_name_of_push name)

theorem list_of_no_directory (resolved : directory.resolve path = .ok target)
    (elsewhere : directory.system.isDirectory target = false) :
    directory.toArchive.list path = .ok [] := by
  rw [list_of_resolved resolved, FileSystem.listing_of_no_directory elsewhere]
  rfl

/-- Whatever is listed is an entry of the directory to which the path leads. -/
theorem entry_of_listed {names : List String} {text : String}
    (listed : directory.toArchive.list path = .ok names) (member : text ∈ names) :
    ∃ holder place name, directory.resolve path = .ok holder ∧
      directory.system.locate holder = .ok place ∧
      (directory.system.accessAt? place).isSome = true ∧ name.text = text ∧
      (directory.system.objectAt? (place ++ [name])).isSome = true := by
  cases resolved : directory.resolve path with
  | error error =>
      rw [list_of_refused resolved] at listed
      cases listed
  | ok holder =>
      cases there : directory.system.isDirectory holder with
      | false =>
          rw [list_of_no_directory resolved there] at listed
          cases listed
          cases member
      | true =>
          obtain ⟨place, located, held⟩ := FileSystem.located_of_directory there
          rw [list_of_located resolved located held] at listed
          cases listed
          obtain ⟨name, inside, rfl⟩ := List.mem_map.mp member
          exact ⟨holder, place, name, rfl, located, held, rfl, (FileSystem.mem_shown.mp inside).1⟩

/-- What a path lists are the names that reading the directory shows to which it resolves, each
entry once, shown as texts; names that are texts are listed as they are. Nothing is listed if
there is no directory. Only a path that leads upwards is refused. From a directory to one of its
entries there is just the name of the entry to go. -/
theorem lists_names_of_entries {place : List String} (cut : Path.segments? path = some place) :
    (∀ directory : DirectoryArchive, (∃ target, directory.resolve path = .ok target) ∨
        ".." ∈ place ∧ directory.toArchive.list path = .error (.pathTraversal path)) ∧
      (∀ (directory : DirectoryArchive) target, directory.resolve path = .ok target →
        ∃ names, directory.toArchive.list path = .ok names ∧
          (∀ location, directory.system.locate target = .ok location →
            (directory.system.accessAt? location).isSome = true →
              ∃ entries : List FileName, names = entries.map FileName.text ∧ entries.Nodup ∧
                (∀ name, name ∈ entries ↔ directory.system.Shows location name) ∧
                (FileName.AreTexts entries →
                  names.Nodup ∧ names.map Bytes.ofText = entries.map FileName.bytes)) ∧
          (directory.system.isDirectory target = false → names = [])) ∧
      (∀ base text, Path.IsName text →
        Path.relative (Path.push base text) base = text ∧
          Path.components (Path.relative (Path.push base text) base) = [.name text]) ∧
      ∀ base name : Bytes, Path.Bytewise.IsName name →
        Path.Bytewise.relative (Path.Bytewise.push base name) base = name := by
  refine ⟨?_, ?_, ?_, ?_⟩
  · intro directory
    cases resolved : directory.resolve path with
    | ok target => exact .inl ⟨target, rfl⟩
    | error error =>
        have refused := list_of_refused resolved
        rcases resolve_eq_error.mp resolved with ⟨relative, -⟩ | ⟨rfl, other, otherCut, upwards⟩
        · rw [Path.absolute_of_segments cut] at relative
          cases relative
        · obtain rfl := Option.some.inj (cut.symm.trans otherCut)
          exact .inr ⟨upwards, refused⟩
  · intro directory target resolved
    cases there : directory.system.isDirectory target with
    | false =>
        refine ⟨[], list_of_no_directory resolved there, ?_, fun _ => rfl⟩
        intro location located held
        obtain ⟨access, held⟩ := Option.isSome_iff_exists.mp held
        rw [FileSystem.is_directory_eq_true.mpr
          ⟨access, FileSystem.find_of_directory located held⟩] at there
        cases there
    | true =>
        obtain ⟨location, located, held⟩ := FileSystem.located_of_directory there
        refine ⟨_, list_of_located resolved located held, ?_, nofun⟩
        intro other otherLocated otherHeld
        obtain rfl : location = other := Except.ok.inj (located.symm.trans otherLocated)
        refine ⟨_, rfl, FileSystem.nodup_shown, fun name => FileSystem.mem_shown, ?_⟩
        intro texts
        refine ⟨?_, FileName.bytes_of_texts texts⟩
        apply FileSystem.nodup_shown.map_on
        intro name member also alsoMember same
        exact FileName.eq_of_texts (texts name member) (texts also alsoMember) same
  · intro base text name
    have taken := Path.relative_push base name
    exact ⟨taken, by rw [taken, Path.components_name name]⟩
  · intro base name isName
    exact Path.Bytewise.relative_push base isName

namespace SampleEntries

def top : FileName := ⟨Bytes.ofText "u", by decide⟩

def inner : FileName := ⟨Bytes.ofText "v", by decide⟩

def dotted : FileName := ⟨Bytes.ofText "...", by decide⟩

def spaced : FileName := ⟨Bytes.ofText "a b\\c", by decide⟩

def system : FileSystem where
  objects := [([top], .directory), ([top, inner], .directory),
    ([top, inner, dotted], .file [1]), ([top, inner, spaced], .directory)]
  workingDirectory := []
  distinct := by decide

/-- The root is spelt by a way round. -/
def roundabout : DirectoryArchive := { system, root := "./u//../u/." }

theorem located : roundabout.system.locate "./u//../u/./v/./" = .ok [top, inner] := by
  have clean : '\x00' ∉ "./u//../u/./v/./".toList := by decide
  have cut : (Path.pieces "./u//../u/./v/./").map Bytes.ofText =
      [[0x2e], [0x75], [], [0x2e, 0x2e], [0x75], [0x2e], [0x76], [0x2e], []] := by decide
  rw [FileSystem.locate_from_root rfl (by decide) clean (by decide) cut]
  cbv

theorem names_in : roundabout.system.namesIn [top, inner] = [dotted, spaced] := by decide

theorem dotted_is_text : dotted.IsText := FileName.is_text_iff.mpr ⟨"...", rfl⟩

theorem spaced_is_text : spaced.IsText := FileName.is_text_iff.mpr ⟨"a b\\c", rfl⟩

end SampleEntries

open SampleEntries in
theorem sample_names_listed :
    Path.segments? "//v/./" = some ["", "v", ".", ""] ∧
      roundabout.resolve "//v/./" = .ok "./u//../u/./v/./" ∧
      (∃ names, roundabout.toArchive.list "//v/./" = .ok names ∧ "..." ∈ names ∧
        "a b\\c" ∈ names ∧ ".." ∉ names ∧ names.Nodup) ∧
      Path.relative (Path.push "./u//../u/." "...") "./u//../u/." = "..." := by
  have cut : Path.segments? "//v/./" = some ["", "v", ".", ""] := rfl
  have resolved : roundabout.resolve "//v/./" = .ok "./u//../u/./v/./" := rfl
  obtain ⟨-, lists, relative, -⟩ := lists_names_of_entries cut
  obtain ⟨names, listed, located_entries, -⟩ := lists roundabout _ resolved
  obtain ⟨entries, rfl, -, shows, whole⟩ := located_entries _ located rfl
  have entry : ∀ name, name ∈ entries ↔ name ∈ [dotted, spaced] := by
    intro name
    rw [shows, ← names_in, FileSystem.mem_names_in]
    exact ⟨And.left, fun held => ⟨held, .full, rfl, trivial⟩⟩
  have texts : FileName.AreTexts entries := by
    intro name member
    rw [entry, List.mem_cons, List.mem_singleton] at member
    rcases member with rfl | rfl
    · exact dotted_is_text
    · exact spaced_is_text
  have taken := (relative "./u//../u/." "..." ?_).1
  · refine ⟨cut, resolved, ⟨_, listed, ?_, ?_, ?_, (whole texts).1⟩, taken⟩
    · exact List.mem_map.mpr ⟨dotted, (entry _).mpr (by decide), FileName.text_of_bytes rfl⟩
    · exact List.mem_map.mpr ⟨spaced, (entry _).mpr (by decide), FileName.text_of_bytes rfl⟩
    · intro parent
      obtain ⟨name, -, same⟩ := List.mem_map.mp parent
      exact name.is_name.not_parent same
  · exact ⟨⟨by decide, by decide, by decide⟩, by decide⟩

namespace SampleLosses

open SampleEntries

def malformed : FileName := ⟨[0xff], by decide⟩

def alsoMalformed : FileName := ⟨[0xfe], by decide⟩

/-- The names of two files are no texts. -/
def renamed : DirectoryArchive where
  system :=
    { objects := [([top], .directory), ([top, malformed], .file []),
        ([top, alsoMalformed], .file [1])]
      workingDirectory := []
      distinct := by decide }
  root := "u"

/-- The directory may be searched and not read. -/
def unreadable : DirectoryArchive where
  system :=
    { objects :=
        [([top], .directoryWith { listing := .refused .permissionDenied, search := none }),
          ([top, inner], .file [])]
      workingDirectory := []
      distinct := by decide }
  root := "u"

/-- The directory under the longest path that leads to it. -/
def padded : DirectoryArchive :=
  { system := SampleEntries.system, root := Path.padded "u" 4094 }

theorem located_top {system : FileSystem} (atRoot : system.workingDirectory = [])
    (walked : system.walk FileSystem.linkLimit [] [[0x75]] = .ok [top]) :
    system.locate "u" = .ok [top] := by
  have clean : '\x00' ∉ "u".toList := by decide
  have cut : (Path.pieces "u").map Bytes.ofText = [[0x75]] := by decide
  rw [FileSystem.locate_from_root atRoot (by decide) clean (by decide) cut, walked]

theorem located_renamed : renamed.system.locate renamed.root = .ok [top] :=
  located_top rfl (by cbv)

theorem located_unreadable : unreadable.system.locate unreadable.root = .ok [top] :=
  located_top rfl (by cbv)

theorem located_plain : SampleEntries.system.locate "u" = .ok [top] :=
  located_top rfl (by cbv)

theorem located_padded : padded.system.locate padded.root = .ok [top] :=
  FileSystem.locate_padded located_plain rfl (by decide)

theorem padded_too_long : FileSystem.pathLimit < (Path.push padded.root "v").utf8ByteSize := by
  have size : padded.root.utf8ByteSize = "u".utf8ByteSize + 4094 := Path.size_padded "u" 4094
  have longer := @Path.size_push padded.root "v" (by decide)
  have single : "u".utf8ByteSize = 1 ∧ "v".utf8ByteSize = 1 := by decide
  rw [FileSystem.pathLimit]
  omega

end SampleLosses

open SampleEntries SampleLosses in
/-- Two names that are no texts are listed alike and as the name of no entry, a directory that
cannot be read lists none of its entries, and neither does one whose path is too long. -/
theorem entries_renamed_or_missed :
    renamed.system.locate renamed.root = .ok [top] ∧
      renamed.toArchive.list "/" = .ok ["\ufffd", "\ufffd"] ∧
      (∀ name, (renamed.system.objectAt? [top, name]).isSome = true →
        name.bytes ≠ Bytes.ofText "\ufffd") ∧
      unreadable.system.locate unreadable.root = .ok [top] ∧
      (unreadable.system.objectAt? [top, inner]).isSome = true ∧
      unreadable.toArchive.list "/" = .ok [] ∧
      padded.system.locate padded.root = .ok [top] ∧
      padded.resolve "/v" = .ok (Path.push padded.root "v") ∧
      padded.system.objectAt? [top, inner] = some .directory ∧
      (padded.system.objectAt? [top, inner, dotted]).isSome = true ∧
      padded.toArchive.list "/v" = .ok [] := by
  have lossy : [malformed, alsoMalformed].map FileName.text = ["\ufffd", "\ufffd"] := by
    decide +kernel
  have resolved : padded.resolve "/v" = .ok (Path.push padded.root "v") := rfl
  have lost : padded.system.isDirectory (Path.push padded.root "v") = false := by
    obtain ⟨error, lost⟩ := FileSystem.locate_too_long padded_too_long
    rw [FileSystem.isDirectory, FileSystem.find_of_lost lost]
  refine ⟨located_renamed, ?_, ?_, located_unreadable, by decide, ?_, located_padded, resolved,
    by decide, by decide, list_of_no_directory resolved lost⟩
  · rw [list_of_located rfl located_renamed rfl, ← lossy]
    rfl
  · intro name there
    have inside := (FileSystem.mem_names_in renamed.system [top] name).mpr there
    have named : renamed.system.namesIn [top] = [malformed, alsoMalformed] := by decide
    rw [named, List.mem_cons, List.mem_singleton] at inside
    rcases inside with rfl | rfl <;> decide
  · rw [list_of_located rfl located_unreadable rfl]
    rfl

end DirectoryArchive

end ArchiveBrowser

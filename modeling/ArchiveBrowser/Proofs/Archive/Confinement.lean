import ArchiveBrowser.Proofs.Archive.Entries
import ArchiveBrowser.Proofs.FileSystem.Below
import Mathlib

/-!
# What an archive over a directory lets see

Paths of the archive only lead downwards from the root, and so its answers come from what is
at and below the root, with one exception: the file system follows symbolic links, and the
target of a link may be anywhere. `outside_only_through_links` says that nothing else makes a
difference, and `link_leads_outside` that a link does.
-/

set_option autoImplicit false

namespace ArchiveBrowser

namespace Archive

/-- Both archives refuse to list a path, or list the same names in some order. -/
def ListAlike (first second : Archive) (path : String) : Prop :=
  (∃ error, first.list path = .error error ∧ second.list path = .error error) ∨
    ∃ listed other, first.list path = .ok listed ∧ second.list path = .ok other ∧
      listed.Perm other

/-- Two archives cannot be told apart at a path. -/
structure Alike (first second : Archive) (path : String) : Prop where
  list : first.ListAlike second path
  is_file : first.isFile path = second.isFile path
  open_file : first.openFile path = second.openFile path
  read : first.read path = second.read path

end Archive

namespace DirectoryArchive

variable {first second : FileSystem} {root path target : String}

theorem alike_of_refused {error : Error}
    (refused : DirectoryArchive.resolve ⟨first, root⟩ path = .error error)
    (refusedAlso : DirectoryArchive.resolve ⟨second, root⟩ path = .error error) :
    (toArchive ⟨first, root⟩).Alike (toArchive ⟨second, root⟩) path := by
  have opened : (toArchive ⟨first, root⟩).openFile path =
      (toArchive ⟨second, root⟩).openFile path := by
    simp only [toArchive, openFile, refused, refusedAlso]
  constructor
  · left
    exact ⟨error, list_of_refused refused, list_of_refused refusedAlso⟩
  · simp only [toArchive, isFile, refused, refusedAlso, Except.map]
  · exact opened
  · simp only [Archive.read, opened]

theorem alike_of_resolved (resolved : DirectoryArchive.resolve ⟨first, root⟩ path = .ok target)
    (resolvedAlso : DirectoryArchive.resolve ⟨second, root⟩ path = .ok target)
    (listed : (first.listing target).value.Perm (second.listing target).value)
    (found : first.find target = second.find target) :
    (toArchive ⟨first, root⟩).Alike (toArchive ⟨second, root⟩) path := by
  have directory : first.isDirectory target = second.isDirectory target := by
    simp only [FileSystem.isDirectory, found]
  have opens : first.openFile target = second.openFile target := by
    simp only [FileSystem.openFile, found]
  have opened : (toArchive ⟨first, root⟩).openFile path =
      (toArchive ⟨second, root⟩).openFile path := by
    simp only [toArchive, openFile, resolved, resolvedAlso, directory, opens]
  constructor
  · right
    exact ⟨_, _, list_of_resolved resolved, list_of_resolved resolvedAlso,
      listed.map (shownName target)⟩
  · rw [is_file_of_resolved resolved, is_file_of_resolved resolvedAlso, FileSystem.isFile,
      FileSystem.isFile, directory, FileSystem.pathExists, FileSystem.pathExists, found]
  · exact opened
  · simp only [Archive.read, opened]

/-- Resolving a path does not look at the file system. -/
theorem resolve_system (first second : FileSystem) (root path : String) :
    DirectoryArchive.resolve ⟨first, root⟩ path = DirectoryArchive.resolve ⟨second, root⟩ path :=
  rfl

/-- The answers of an archive over a directory are the same in any two file systems that have
the same at and below that directory, unless the steps of the path, from the root on, lead to a
symbolic link. -/
theorem outside_only_through_links {first second : FileSystem} {root : String} {base : Location}
    (rooted : first.locate root = .ok base) (rootedAlso : second.locate root = .ok base)
    (agrees : first.AgreesBelow second base) (path : String) :
    (toArchive ⟨first, root⟩).Alike (toArchive ⟨second, root⟩) path ∨
      first.MeetsLink base (Path.steps path) := by
  have same := resolve_system first second root path
  rcases resolve_cases ⟨first, root⟩ path with
    ⟨-, refused⟩ | ⟨-, -, refused⟩ | ⟨-, inside, rest, relative, steps, resolved⟩
  · exact .inl (alike_of_refused refused (same.symm.trans refused))
  · exact .inl (alike_of_refused refused (same.symm.trans refused))
  · have resolvedAlso := same.symm.trans resolved
    have insideRest : ".." ∉ Path.pieces rest := by
      rwa [← Path.parent_mem_steps, steps, Path.parent_mem_steps]
    by_cases atRoot : rest = ""
    · rw [if_pos atRoot] at resolved resolvedAlso
      have here : first.locate root = .ok (base ++ []) := by rwa [List.append_nil]
      have hereAlso : second.locate root = .ok (base ++ []) := by rwa [List.append_nil]
      left
      exact alike_of_resolved resolved resolvedAlso
        (FileSystem.listing_of_agrees agrees here hereAlso)
        (FileSystem.find_of_agrees agrees here hereAlso)
    · rw [if_neg atRoot] at resolved resolvedAlso
      rcases FileSystem.locate_of_agrees agrees rooted rootedAlso relative insideRest with
        meets | ⟨error, lost, lostAlso⟩ | ⟨below, located, locatedAlso⟩
      · right
        rwa [steps] at meets
      · left
        have nowhere := FileSystem.find_of_lost lost
        have nowhereAlso := FileSystem.find_of_lost lostAlso
        apply alike_of_resolved resolved resolvedAlso
        · rw [FileSystem.listing_of_no_directory (by rw [FileSystem.isDirectory, nowhere]),
            FileSystem.listing_of_no_directory (by rw [FileSystem.isDirectory, nowhereAlso])]
        · rw [nowhere, nowhereAlso]
      · left
        exact alike_of_resolved resolved resolvedAlso
          (FileSystem.listing_of_agrees agrees located locatedAlso)
          (FileSystem.find_of_agrees agrees located locatedAlso)

namespace SampleConfinement

def top : FileName := ⟨Bytes.ofText "r", by decide⟩

def file : FileName := ⟨Bytes.ofText "f", by decide⟩

def link : FileName := ⟨Bytes.ofText "l", by decide⟩

def secret : FileName := ⟨Bytes.ofText "s", by decide⟩

/-- In the directory there are a file and a link to what is beside the directory. -/
def withSecret : FileSystem where
  objects := [([top], .directory), ([top, file], .file [1]), ([top, link], .link "../s"),
    ([secret], .file [2])]
  workingDirectory := []
  distinct := by decide

def withoutSecret : FileSystem where
  objects := [([top], .directory), ([top, file], .file [1]), ([top, link], .link "../s")]
  workingDirectory := []
  distinct := by decide

theorem agrees : withSecret.AgreesBelow withoutSecret [top] := by
  intro place
  have apart : (top == secret) = false := by decide
  simp [FileSystem.objectAt?, withSecret, withoutSecret, List.lookup_cons, apart]

theorem located {system : FileSystem} (atRoot : system.workingDirectory = [])
    (walked : system.walk FileSystem.linkLimit [] [[0x72]] = .ok [top]) :
    system.locate "r" = .ok [top] := by
  have clean : '\x00' ∉ "r".toList := by decide
  have cut : (Path.pieces "r").map Bytes.ofText = [[0x72]] := by decide
  rw [FileSystem.locate_from_root atRoot (by decide) clean (by decide) cut, walked]

theorem rooted : withSecret.locate "r" = .ok [top] := located rfl (by cbv)

theorem rooted_also : withoutSecret.locate "r" = .ok [top] := located rfl (by cbv)

theorem file_meets_no_link : ¬withSecret.MeetsLink [top] (Path.steps "/f") := by
  rintro ⟨names, target, nonempty, leads, held⟩
  have single : names.map FileName.bytes <+: [file.bytes] := leads
  obtain ⟨name, more, rfl⟩ := List.exists_cons_of_ne_nil nonempty
  rw [List.map_cons, List.cons_prefix_cons] at single
  obtain ⟨sameBytes, noMore⟩ := single
  have same := FileName.bytes_injective sameBytes
  have last : more = [] := by simpa using noMore
  have isFile : withSecret.objectAt? ([top] ++ [file]) = some (.file [1]) := by decide
  rw [same, last, isFile] at held
  cases held

end SampleConfinement

open SampleConfinement in
theorem sample_confined :
    withSecret.locate "r" = .ok [top] ∧ withoutSecret.locate "r" = .ok [top] ∧
      withSecret.AgreesBelow withoutSecret [top] ∧
      (toArchive ⟨withSecret, "r"⟩).Alike (toArchive ⟨withoutSecret, "r"⟩) "/f" := by
  refine ⟨rooted, rooted_also, agrees, ?_⟩
  rcases outside_only_through_links rooted rooted_also agrees "/f" with alike | meets
  · exact alike
  · exact absurd meets file_meets_no_link

open SampleConfinement in
/-- Behind the link the archive shows the file beside its root, and its absence alike. -/
theorem link_leads_outside :
    withSecret.locate "r" = .ok [top] ∧ withoutSecret.locate "r" = .ok [top] ∧
      withSecret.AgreesBelow withoutSecret [top] ∧
      (toArchive ⟨withSecret, "r"⟩).isFile "/l" = .ok true ∧
      (toArchive ⟨withoutSecret, "r"⟩).isFile "/l" = .ok false ∧
      ((toArchive ⟨withSecret, "r"⟩).read "/l").value = .ok (some [2]) ∧
      ((toArchive ⟨withoutSecret, "r"⟩).read "/l").value = .ok none ∧
      ¬(toArchive ⟨withSecret, "r"⟩).Alike (toArchive ⟨withoutSecret, "r"⟩) "/l" := by
  have seen : (toArchive ⟨withSecret, "r"⟩).isFile "/l" = .ok true := by cbv
  have unseen : (toArchive ⟨withoutSecret, "r"⟩).isFile "/l" = .ok false := by cbv
  refine ⟨rooted, rooted_also, agrees, seen, unseen, by cbv, by cbv, ?_⟩
  intro alike
  have same := alike.is_file
  rw [seen, unseen] at same
  cases same

end DirectoryArchive

end ArchiveBrowser

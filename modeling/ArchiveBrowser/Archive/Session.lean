import ArchiveBrowser.Archive.Basic
import ArchiveBrowser.Stream.Copy

/-!
# Sessions

A run of questions to one archive in which any number of files may be open at a
time. Each open file is a source of its own, numbered in the order of opening.
-/

set_option autoImplicit false

namespace ArchiveBrowser.Archive

open Log

inductive Step where
  | list (path : String)
  | isFile (path : String)
  | read (path : String)
  | openFile (path : String)
  | take (stream size : Nat)
  | drain (stream : Nat)
  | digest (stream : Nat) (algorithm : Digest.Algorithm)

inductive Answer where
  | names (names : List String)
  | flag (value : Bool)
  | contents (bytes : Option Bytes)
  | opened (stream : Option Nat)
  | bytes (bytes : Bytes)
  | digest (hex : String)

structure Session where
  streams : List Source

namespace Session

def start : Session := ⟨[]⟩

/-- Reads from an open file; from one that was never opened there is nothing to read. -/
def onStream (session : Session) (stream : Nat)
    (use : Source → Except Fault Answer × Source) : Except Error Answer × Session :=
  let (answer, rest) := use ((session.streams[stream]?).getD [])
  (answer.mapError .io, { streams := session.streams.set stream rest })

def step (session : Session) (archive : Archive) : Step → Logged (Except Error Answer × Session)
  | .list path => (archive.listing path).map fun names => (names.map .names, session)
  | .isFile path => .quiet ((archive.isFile path).map .flag, session)
  | .read path => (archive.read path).map fun bytes => (bytes.map .contents, session)
  | .openFile path =>
    (archive.openFile path).map fun
      | .error error => (.error error, session)
      | .ok none => (.ok (.opened none), session)
      | .ok (some source) =>
        (.ok (.opened (some session.streams.length)), ⟨session.streams ++ [source]⟩)
  | .take stream size =>
    .quiet (session.onStream stream fun source =>
      let (bytes, rest) := source.readUpTo size
      (bytes.map .bytes, rest))
  | .drain stream =>
    .quiet (session.onStream stream fun source =>
      let (bytes, rest) := source.readAll
      (bytes.map .bytes, rest))
  | .digest stream algorithm =>
    .quiet (session.onStream stream fun source =>
      let (hex, rest) := source.digest algorithm
      (hex.map .digest, rest))

def run (session : Session) (archive : Archive) :
    (steps : List Step) → Logged (List (Except Error Answer) × Session)
  | [] => .quiet ([], session)
  | first :: rest =>
    (session.step archive first).andThen fun (answer, session) =>
      (session.run archive rest).map fun (answers, session) => (answer :: answers, session)

end Session

end ArchiveBrowser.Archive

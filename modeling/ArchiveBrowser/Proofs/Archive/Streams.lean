import ArchiveBrowser.Archive.Session
import ArchiveBrowser.Archive.Zip
import ArchiveBrowser.Proofs.Archive.Files
import ArchiveBrowser.Proofs.Stream.Whole
import ArchiveBrowser.Proofs.Zip.FileRecords
import Mathlib

/-!
# Open files do not disturb each other

In a session any number of files may be open, and the steps that read from them come in any
order. `Session.step_on_stream` says what one step does to one open file: it takes a piece off
the front of what is left, or leaves it alone. By induction a whole run hands out the file from
its front, whatever else happens in between; and a question to the archive itself is answered
as if it were the only one.
-/

set_option autoImplicit false

namespace ArchiveBrowser

namespace Archive

abbrev Exchange := Step × Except Error Answer

def Step.stream? : Step → Option Nat
  | .take stream _ | .drain stream | .digest stream _ => some stream
  | .list _ | .isFile _ | .read _ | .openFile _ => none

def Step.readsToEnd : Step → Bool
  | .drain _ | .digest _ _ => true
  | _ => false

def Exchange.Shows : (exchange : Exchange) → (piece : Bytes) → Prop
  | (.take _ size, answer), piece => answer = .ok (.bytes piece) ∧ piece.length ≤ size
  | (.drain _, answer), piece => answer = .ok (.bytes piece)
  | (.digest _ algorithm, answer), piece => answer = .ok (.digest (algorithm.digest piece))
  | _, _ => False

/-- From an open file the step obtains these bytes: none, if it does not read from it. -/
def Exchange.Obtains (stream : Nat) (exchange : Exchange) (piece : Bytes) : Prop :=
  if exchange.1.stream? = some stream then exchange.Shows piece else piece = []

def Exchange.opensFile : Exchange → Bool
  | (.openFile _, .ok (.opened (some _))) => true
  | _ => false

def Answer.numbered (stream : Nat) : Answer → Answer
  | .opened (some _) => .opened (some stream)
  | answer => answer

/-- From an open file that holds `whole`, each step of a run obtains the piece that comes next. -/
structure Delivers (stream : Nat) (whole : Bytes) (exchanges : List Exchange)
    (pieces : List Bytes) : Prop where
  obtained : List.Forall₂ (Exchange.Obtains stream) exchanges pieces
  in_front : ∀ count, (pieces.take count).flatten <+: whole
  exhausted : ∀ count step answer, exchanges[count]? = some (step, answer) →
    step.stream? = some stream → step.readsToEnd = true →
    (pieces.take (count + 1)).flatten = whole
  /-- A read of limited size gives less than that only at the end. -/
  filled : ∀ count size answer, exchanges[count]? = some (.take stream size, answer) →
    (∃ piece, pieces[count]? = some piece ∧ piece.length = size) ∨
      (pieces.take (count + 1)).flatten = whole

theorem Delivers.nil (stream : Nat) (whole : Bytes) : Delivers stream whole [] [] := by
  constructor
  · exact .nil
  · intro count
    rw [List.take_nil]
    exact List.nil_prefix
  · intro count step answer exchange
    cases exchange
  · intro count size answer exchange
    cases exchange

structure Exchange.Advances (stream : Nat) (exchange : Exchange) (piece left : Bytes) : Prop where
  obtained : exchange.Obtains stream piece
  exhausted : exchange.1.stream? = some stream → exchange.1.readsToEnd = true → left = []
  filled : ∀ size, exchange.1 = .take stream size → piece.length = size ∨ left = []

theorem Delivers.cons {stream : Nat} {exchange : Exchange} {exchanges : List Exchange}
    {piece left : Bytes} {pieces : List Bytes} (advances : exchange.Advances stream piece left)
    (delivers : Delivers stream left exchanges pieces) :
    Delivers stream (piece ++ left) (exchange :: exchanges) (piece :: pieces) := by
  constructor
  · exact .cons advances.obtained delivers.obtained
  · intro count
    cases count with
    | zero => exact List.nil_prefix
    | succ count =>
        rw [List.take_succ_cons, List.flatten_cons, List.prefix_append_right_inj]
        exact delivers.in_front count
  · intro count step answer happened reads toEnd
    rw [List.take_succ_cons, List.flatten_cons]
    cases count with
    | zero =>
        cases happened
        rw [advances.exhausted reads toEnd, List.take_zero, List.flatten_nil]
    | succ count => rw [delivers.exhausted count step answer happened reads toEnd]
  · intro count size answer happened
    rw [List.take_succ_cons, List.flatten_cons]
    cases count with
    | zero =>
        cases happened
        rcases advances.filled size rfl with full | nothing
        · exact .inl ⟨piece, rfl, full⟩
        · right
          rw [nothing, List.take_zero, List.flatten_nil]
    | succ count =>
        rcases delivers.filled count size answer happened with ⟨later, held, full⟩ | whole
        · exact .inl ⟨later, held, full⟩
        · right
          rw [whole]

namespace Session

variable {archive : Archive} {session : Session}

theorem on_stream_streams (session : Session) (asked stream : Nat)
    (use : Source → Except Fault Answer × Source) (other : asked ≠ stream) :
    (session.onStream asked use).2.streams[stream]? = session.streams[stream]? := by
  unfold onStream
  exact List.getElem?_set_ne other

theorem on_stream_open {stream : Nat} {source : Source}
    (held : session.streams[stream]? = some source)
    (use : Source → Except Fault Answer × Source) :
    (session.onStream stream use).1 = (use source).1.mapError .io ∧
      (session.onStream stream use).2.streams[stream]? = some (use source).2 := by
  unfold onStream
  rw [held, Option.getD_some]
  obtain ⟨inside, -⟩ := List.getElem?_eq_some_iff.mp held
  exact ⟨rfl, List.getElem?_set_self inside⟩

theorem step_open_file (session : Session) (archive : Archive) (path : String) :
    (∃ error, (archive.openFile path).value = .error error ∧
        (session.step archive (.openFile path)).value = (.error error, session)) ∨
      ((archive.openFile path).value = .ok none ∧
        (session.step archive (.openFile path)).value = (.ok (.opened none), session)) ∨
      ∃ source, (archive.openFile path).value = .ok (some source) ∧
        (session.step archive (.openFile path)).value =
          (.ok (.opened (some session.streams.length)), ⟨session.streams ++ [source]⟩) := by
  simp only [step, Log.Logged.map]
  cases opened : (archive.openFile path).value with
  | error error => exact .inl ⟨error, rfl, rfl⟩
  | ok source? =>
      right
      cases source? with
      | none => exact .inl ⟨rfl, rfl⟩
      | some source => exact .inr ⟨source, rfl, rfl⟩

theorem streams_of_asking {step : Step} (asks : step.stream? = none) (session : Session)
    (archive : Archive) :
    session.streams <+: (session.step archive step).value.2.streams := by
  cases step with
  | list path | isFile path | read path => exact List.prefix_rfl
  | openFile path =>
      rcases session.step_open_file archive path with
        ⟨error, -, stepped⟩ | ⟨-, stepped⟩ | ⟨source, -, stepped⟩
      · rw [stepped]
      · rw [stepped]
      · rw [stepped]
        exact List.prefix_append session.streams [source]
  | take asked size | drain asked | digest asked algorithm => cases asks

theorem answer_of_asking {step : Step} (asks : step.stream? = none) (session : Session)
    (archive : Archive) :
    (session.step archive step).value.1 =
      (start.step archive step).value.1.map (Answer.numbered session.streams.length) := by
  cases step with
  | list path =>
      change (archive.list path).map Answer.names = ((archive.list path).map Answer.names).map _
      cases archive.list path <;> rfl
  | isFile path =>
      change (archive.isFile path).map Answer.flag = ((archive.isFile path).map Answer.flag).map _
      cases archive.isFile path <;> rfl
  | read path =>
      change (archive.read path).value.map Answer.contents =
        ((archive.read path).value.map Answer.contents).map _
      cases (archive.read path).value <;> rfl
  | openFile path =>
      simp only [Session.step, Log.Logged.map]
      cases (archive.openFile path).value with
      | error error => rfl
      | ok source? => cases source? <;> rfl
  | take asked size | drain asked | digest asked algorithm => cases asks

theorem length_streams_step (session : Session) (archive : Archive) (step : Step) :
    (session.step archive step).value.2.streams.length = session.streams.length +
      [(step, (session.step archive step).value.1)].countP Exchange.opensFile := by
  cases step with
  | list path | isFile path | read path => rfl
  | openFile path =>
      rcases session.step_open_file archive path with
        ⟨error, -, stepped⟩ | ⟨-, stepped⟩ | ⟨source, -, stepped⟩
      · rw [stepped]
        rfl
      · rw [stepped]
        rfl
      · rw [stepped]
        exact List.length_append
  | take asked size | drain asked | digest asked algorithm => exact List.length_set

theorem stream_kept {stream : Nat} {step : Step} {source : Source}
    (held : session.streams[stream]? = some source) (elsewhere : step.stream? ≠ some stream)
    (archive : Archive) :
    (session.step archive step).value.2.streams[stream]? = some source := by
  cases asked : step.stream? with
  | none =>
      obtain ⟨added, grown⟩ := streams_of_asking asked session archive
      obtain ⟨inside, -⟩ := List.getElem?_eq_some_iff.mp held
      rw [← grown, List.getElem?_append_left inside, held]
  | some other =>
      have apart : other ≠ stream := by
        rintro rfl
        exact elsewhere asked
      cases step with
      | list path | isFile path | read path | openFile path => cases asked
      | take | drain | digest =>
          cases asked
          exact (on_stream_streams session other stream _ apart).trans held

theorem advances_elsewhere {stream : Nat} {exchange : Exchange}
    (elsewhere : exchange.1.stream? ≠ some stream) (rest : Bytes) :
    exchange.Advances stream [] rest := by
  constructor
  · exact (if_neg elsewhere).mpr rfl
  · intro reads
    exact absurd reads elsewhere
  · intro size taken
    rw [taken] at elsewhere
    exact absurd rfl elsewhere

theorem advances_to_end {stream : Nat} {exchange : Exchange} {rest : Bytes}
    (reads : exchange.1.stream? = some stream) (shown : exchange.Shows rest) :
    exchange.Advances stream rest [] := by
  constructor
  · exact (if_pos reads).mpr shown
  · intro own toEnd
    rfl
  · intro size taken
    exact .inr rfl

/-- One step takes a piece off the front of what an open file still has, or leaves it alone. -/
theorem step_on_stream {stream : Nat} {rest : Bytes}
    (held : session.streams[stream]? = some (.ofBytes rest)) (archive : Archive) (step : Step) :
    ∃ piece left, rest = piece ++ left ∧
      (session.step archive step).value.2.streams[stream]? = some (.ofBytes left) ∧
      Exchange.Advances stream (step, (session.step archive step).value.1) piece left := by
  by_cases reads : step.stream? = some stream
  · cases step with
    | list path | isFile path | read path | openFile path => cases reads
    | take asked size =>
        cases reads
        obtain ⟨answered, left⟩ := on_stream_open held fun source =>
          ((source.readUpTo size).1.map Answer.bytes, (source.readUpTo size).2)
        rw [Source.read_up_to_of_bytes] at answered left
        refine ⟨rest.take size, rest.drop size, (List.take_append_drop size rest).symm, left, ?_⟩
        constructor
        · exact (if_pos rfl).mpr ⟨answered, List.length_take_le size rest⟩
        · intro own toEnd
          cases toEnd
        · intro most same
          cases same
          rw [List.length_take, List.drop_eq_nil_iff]
          omega
    | drain asked =>
        cases reads
        obtain ⟨answered, left⟩ := on_stream_open held fun source =>
          (source.readAll.1.map Answer.bytes, source.readAll.2)
        rw [Source.read_all_of_bytes_leaves_nothing] at answered left
        exact ⟨rest, [], (List.append_nil rest).symm, left, advances_to_end rfl answered⟩
    | digest asked algorithm =>
        cases reads
        obtain ⟨answered, left⟩ := on_stream_open held fun source =>
          ((source.digest algorithm).1.map Answer.digest, (source.digest algorithm).2)
        rw [Source.digest_of_bytes] at answered left
        exact ⟨rest, [], (List.append_nil rest).symm, left, advances_to_end rfl answered⟩
  · exact ⟨[], rest, rfl, stream_kept held reads archive, advances_elsewhere reads rest⟩

def exchanges (session : Session) (archive : Archive) (steps : List Step) : List Exchange :=
  steps.zip (session.run archive steps).value.1

theorem exchanges_cons (session : Session) (archive : Archive) (step : Step)
    (steps : List Step) :
    session.exchanges archive (step :: steps) =
      (step, (session.step archive step).value.1) ::
        (session.step archive step).value.2.exchanges archive steps :=
  rfl

theorem length_answers (session : Session) (archive : Archive) (steps : List Step) :
    (session.run archive steps).value.1.length = steps.length := by
  induction steps generalizing session with
  | nil => rfl
  | cons step steps ih => exact congrArg (· + 1) (ih (session.step archive step).value.2)

theorem delivers_of_open {stream : Nat} {rest : Bytes}
    (held : session.streams[stream]? = some (.ofBytes rest)) (archive : Archive)
    (steps : List Step) :
    ∃ pieces, Delivers stream rest (session.exchanges archive steps) pieces := by
  induction steps generalizing session rest with
  | nil => exact ⟨[], Delivers.nil stream rest⟩
  | cons step steps ih =>
      obtain ⟨piece, left, split, kept, advances⟩ := step_on_stream held archive step
      obtain ⟨pieces, delivers⟩ := ih kept
      rw [exchanges_cons, split]
      exact ⟨piece :: pieces, delivers.cons advances⟩

/-- Each exchange of a run is a step of a session in which the files opened before are open. -/
theorem exchange_of_run {steps : List Step} {before after : List Exchange} {step : Step}
    {answer : Except Error Answer}
    (split : session.exchanges archive steps = before ++ (step, answer) :: after) :
    ∃ (here : Session) (later : List Step),
      here.streams.length = session.streams.length + before.countP Exchange.opensFile ∧
        answer = (here.step archive step).value.1 ∧
        after = (here.step archive step).value.2.exchanges archive later := by
  induction steps generalizing session before with
  | nil => exact absurd split (by simp [exchanges])
  | cons first steps ih =>
      rw [exchanges_cons] at split
      cases before with
      | nil =>
          cases split
          exact ⟨session, steps, rfl, rfl, rfl⟩
      | cons exchange before =>
          rw [List.cons_append, List.cons.injEq] at split
          obtain ⟨rfl, split⟩ := split
          obtain ⟨here, later, numbered, answered, onward⟩ := ih split
          refine ⟨here, later, ?_, answered, onward⟩
          rw [numbered, length_streams_step, Nat.add_assoc, ← List.countP_append,
            List.singleton_append]

end Session

structure Independent (archive : Archive) (steps : List Step) : Prop where
  answered : (Session.start.run archive steps).value.1.length = steps.length
  /-- A question to the archive is answered as if it were the only step. An opened file has
  its number from the order of opening. -/
  alone : ∀ before step answer after,
    Session.start.exchanges archive steps = before ++ (step, answer) :: after →
    step.stream? = none →
    ∃ own, (Session.start.run archive [step]).value.1 = [own] ∧
      answer = own.map (Answer.numbered (before.countP Exchange.opensFile))
  /-- An opened file is handed out from its front, as what reading its path gives. -/
  delivered : ∀ before path stream after,
    Session.start.exchanges archive steps =
      before ++ (.openFile path, .ok (.opened (some stream))) :: after →
    ∃ whole pieces, (archive.read path).value = .ok (some whole) ∧
      Delivers stream whole after pieces

def OpensBytes (archive : Archive) : Prop :=
  ∀ path source, (archive.openFile path).value = .ok (some source) →
    ∃ bytes, source = .ofBytes bytes

theorem independent_of_opens_bytes {archive : Archive} (opens : archive.OpensBytes)
    (steps : List Step) : archive.Independent steps := by
  constructor
  · exact Session.length_answers Session.start archive steps
  · intro before step answer after split asks
    obtain ⟨here, later, numbered, answered, -⟩ := Session.exchange_of_run split
    have inOrder : here.streams.length = before.countP Exchange.opensFile :=
      numbered.trans (Nat.zero_add _)
    refine ⟨_, rfl, ?_⟩
    rw [answered, Session.answer_of_asking asks here archive, inOrder]
  · intro before path stream after split
    obtain ⟨here, later, numbered, answered, onward⟩ := Session.exchange_of_run split
    rcases here.step_open_file archive path with
      ⟨error, -, stepped⟩ | ⟨-, stepped⟩ | ⟨source, opened, stepped⟩
    · rw [stepped] at answered
      cases answered
    · rw [stepped] at answered
      cases answered
    · rw [stepped] at answered onward
      cases answered
      obtain ⟨bytes, rfl⟩ := opens path source opened
      have held : (Session.mk (here.streams ++ [Source.ofBytes bytes])).streams[
          here.streams.length]? = some (.ofBytes bytes) := List.getElem?_concat_length
      obtain ⟨pieces, delivers⟩ := Session.delivers_of_open held archive later
      rw [onward]
      exact ⟨bytes, pieces, read_of_opened opened, delivers⟩

end Archive

theorem ZipArchive.opens_bytes (zip : ZipArchive) : zip.toArchive.OpensBytes := by
  intro path source opened
  change (zip.openFile path).value = _ at opened
  cases absolute : Path.isAbsolute path with
  | false =>
      rw [openFile, contents, if_neg (by simp [absolute])] at opened
      cases opened
  | true =>
      rw [open_file_value absolute, Except.ok.injEq, Option.bind_eq_some_iff] at opened
      obtain ⟨entry, -, decoded⟩ := opened
      obtain ⟨bytes, -, made⟩ := Option.map_eq_some_iff.mp decoded
      exact ⟨bytes, made.symm⟩

theorem DirectoryArchive.opens_bytes {directory : DirectoryArchive}
    (connected : directory.system.Connected) : directory.toArchive.OpensBytes := by
  intro path source opened
  obtain ⟨file, -, noDirectory, there⟩ := open_file_eq_some.mp opened
  exact FileSystem.bytes_of_opened connected (FileSystem.opened_eq_some.mpr ⟨noDirectory, there⟩)

/-- Whatever steps a session takes, what is read from one open file does not depend on what is
done in between with others, and no question to the archive depends on what came before it. -/
theorem open_files_are_independent :
    (∀ (zip : ZipArchive) (steps : List Archive.Step), zip.toArchive.Independent steps) ∧
      ∀ directory : DirectoryArchive, directory.system.Connected →
        ∀ steps : List Archive.Step, directory.toArchive.Independent steps := by
  constructor
  · intro zip steps
    exact Archive.independent_of_opens_bytes zip.opens_bytes steps
  · intro directory connected steps
    exact Archive.independent_of_opens_bytes (DirectoryArchive.opens_bytes connected) steps

namespace SampleSession

def top : FileName := ⟨Bytes.ofText "w", by decide⟩

def file : FileName := ⟨Bytes.ofText "n", by decide⟩

def directory : DirectoryArchive where
  system :=
    { objects := [([top], .directory), ([top, file], .file [1, 2, 3])]
      workingDirectory := []
      distinct := by decide }
  root := "w"

theorem connected : directory.system.Connected :=
  FileSystem.connected_of_objects (by decide)

def steps : List Archive.Step :=
  [.openFile "/n", .take 0 2, .openFile "/n", .isFile "/n", .take 1 1, .drain 0, .drain 1]

end SampleSession

open SampleSession in
theorem sample_session :
    directory.system.Connected ∧ directory.toArchive.Independent steps ∧
      (Archive.Session.start.run directory.toArchive steps).value.1 =
        [.ok (.opened (some 0)), .ok (.bytes [1, 2]), .ok (.opened (some 1)), .ok (.flag true),
          .ok (.bytes [1]), .ok (.bytes [3]), .ok (.bytes [2, 3])] := by
  obtain ⟨-, directories⟩ := open_files_are_independent
  refine ⟨connected, directories directory connected steps, ?_⟩
  cbv

end ArchiveBrowser

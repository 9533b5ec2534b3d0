import ArchiveBrowser.Proofs.Stream.Accepting
import ArchiveBrowser.Proofs.Stream.Delivered
import Mathlib

/-!
# Every byte of a copy is accounted for

The data that a copy reads comes in chunks, which depend on the source alone. A copy puts
them into its outlet one after the other until a put fails. `copy_from_of_puts` follows it
over as many chunks as the outlet takes, and each way in which a copy may end is then a
matter of the next read or the next put.
-/

set_option autoImplicit false

namespace ArchiveBrowser

/-- Puts the pieces into an outlet in turn, until one of them fails. -/
def Outlet.putEach {σ : Type} [Outlet σ] (outlet : σ) : List Bytes → Except Fault Unit × σ
  | [] => (.ok (), outlet)
  | piece :: rest =>
    match put outlet piece with
    | (.ok _, after) => putEach after rest
    | (.error fault, after) => (.error fault, after)

theorem Outlet.put_each_error {σ : Type} [Outlet σ] {fault : Fault} {outlet after : σ}
    {pieces : List Bytes} (puts : putEach outlet pieces = (.error fault, after)) :
    ∃ earlier last later between, pieces = earlier ++ last :: later ∧
      putEach outlet earlier = (.ok (), between) ∧ put between last = (.error fault, after) := by
  induction pieces generalizing outlet with
  | nil => simp [putEach] at puts
  | cons piece rest ih =>
      simp only [putEach] at puts
      split at puts
      · rename_i taken next step
        obtain ⟨earlier, last, later, between, parts, before, failed⟩ := ih puts
        refine ⟨piece :: earlier, last, later, between, by rw [parts, List.cons_append], ?_, failed⟩
        simp only [putEach, step]
        exact before
      · rename_i met next step
        obtain ⟨same, rfl⟩ := Prod.mk.inj puts
        cases same
        exact ⟨[], piece, rest, outlet, rfl, rfl, step⟩

theorem Sink.took_of_put_each {sink after : Sink} {pieces : List Bytes}
    (puts : Outlet.putEach sink pieces = (.ok (), after)) : sink.Took pieces.flatten after := by
  induction pieces generalizing sink with
  | nil =>
      obtain ⟨-, rfl⟩ := Prod.mk.inj puts
      exact Took.refl sink
  | cons piece rest ih =>
      simp only [Outlet.putEach] at puts
      split at puts
      · rename_i taken next step
        exact (write_all_ok step).trans (ih puts)
      · simp at puts

namespace Source

/-- The data that reads of a whole buffer deliver, up to an end of file or a failure. -/
def chunks (source : Source) : List Bytes :=
  match _ : source.next bufferSize with
  | (.data bytes, rest) => bytes :: chunks rest
  | _ => []
termination_by source.weight
decreasing_by exact weight_lt_of_next_data (show bufferSize ≠ 0 by decide) ‹_›

/-- What so many reads of a whole buffer leave. -/
def afterReads (source : Source) (count : Nat) : Source :=
  (fun held : Source => (held.next bufferSize).2)^[count] source

theorem chunks_of_data {source rest : Source} {bytes : Bytes}
    (read : source.next bufferSize = (.data bytes, rest)) :
    source.chunks = bytes :: rest.chunks := by
  rw [chunks]
  split
  · rename_i found later same
    rw [read] at same
    cases same
    rfl
  · rename_i other
    exact absurd read (other bytes rest)

theorem next_of_chunks_cons {source : Source} {bytes : Bytes} {later : List Bytes}
    (chunked : source.chunks = bytes :: later) :
    ∃ rest, source.next bufferSize = (.data bytes, rest) ∧ rest.chunks = later := by
  rw [chunks] at chunked
  split at chunked
  · rename_i found rest read
    cases chunked
    exact ⟨rest, read, rfl⟩
  · cases chunked

theorem next_of_chunks_nil {source : Source} (chunked : source.chunks = []) :
    ∃ rest, source.next bufferSize = (source.fault?.elim .endOfFile .failed, rest) := by
  cases read : source.next bufferSize with
  | mk chunk rest =>
      refine ⟨rest, ?_⟩
      cases chunk with
      | data bytes =>
          rw [chunks_of_data read] at chunked
          cases chunked
      | endOfFile =>
          rw [(next_end_of_file read).2]
          rfl
      | failed fault =>
          rw [(next_failed read).2]
          rfl

theorem flatten_chunks (source : Source) : source.chunks.flatten = source.delivered := by
  fun_induction chunks source with
  | case1 source bytes rest read ih => rw [(next_data read).1, List.flatten_cons, ih]
  | case2 source ended =>
      cases read : source.next bufferSize with
      | mk chunk rest =>
          cases chunk with
          | data bytes => exact absurd read (ended bytes rest)
          | endOfFile => exact (next_end_of_file read).1.symm
          | failed fault => exact (next_failed read).1.symm

theorem length_of_mem_chunks (source : Source) :
    ∀ chunk ∈ source.chunks, chunk.length ≤ bufferSize := by
  fun_induction chunks source with
  | case1 source bytes rest read ih =>
      intro chunk member
      rcases List.mem_cons.mp member with rfl | behind
      · exact (bounds_of_next_data read).1
      · exact ih chunk behind
  | case2 => simp

variable {σ : Type} [Outlet σ]

theorem copy_from_step (source : Source) (outlet : σ) (total : Nat) :
    source.copyFrom outlet total =
      match source.next bufferSize with
      | (.endOfFile, rest) =>
        { outcome := (Outlet.flush outlet).1.map fun _ => total, source := rest,
          outlet := (Outlet.flush outlet).2 }
      | (.failed fault, rest) => { outcome := .error fault, source := rest, outlet }
      | (.data bytes, rest) =>
        match Outlet.put outlet bytes with
        | (.ok _, outlet) => rest.copyFrom outlet (total + bytes.length)
        | (.error fault, outlet) => { outcome := .error fault, source := rest, outlet } := by
  rw [copyFrom]
  split
  · rename_i read
    rw [read]
  · rename_i read
    rw [read]
  · rename_i bytes rest read
    rcases put : Outlet.put outlet bytes with ⟨_ | _, after⟩ <;> simp only [read, put]

/-- As many rounds of a copy as there are chunks that the outlet takes. -/
theorem copy_from_of_puts {source : Source} {earlier later : List Bytes}
    (chunked : source.chunks = earlier ++ later) {outlet after : σ}
    (puts : Outlet.putEach outlet earlier = (.ok (), after)) (total : Nat) :
    source.copyFrom outlet total =
        (source.afterReads earlier.length).copyFrom after (total + earlier.flatten.length) ∧
      (source.afterReads earlier.length).chunks = later ∧
      (source.afterReads earlier.length).fault? = source.fault? := by
  induction earlier generalizing source outlet total with
  | nil =>
      obtain ⟨-, rfl⟩ := Prod.mk.inj puts
      exact ⟨rfl, chunked, rfl⟩
  | cons piece earlier ih =>
      obtain ⟨rest, read, chunkedRest⟩ := next_of_chunks_cons chunked
      simp only [Outlet.putEach] at puts
      split at puts
      · rename_i taken next step
        obtain ⟨copied, left, same⟩ := ih chunkedRest puts (total + piece.length)
        have onward : source.afterReads (earlier.length + 1) = rest.afterReads earlier.length := by
          rw [afterReads, Function.iterate_succ_apply, read, afterReads]
        have round : source.copyFrom outlet total = rest.copyFrom next (total + piece.length) := by
          rw [copy_from_step, read]
          simp only [step]
        rw [List.length_cons, onward, round, copied, List.flatten_cons, List.length_append,
          Nat.add_assoc]
        exact ⟨rfl, left, by rw [same, (next_data read).2]⟩
      · simp at puts

/-- Where the outlet takes all chunks, the copy ends with the source. -/
theorem copy_of_puts_ok {source : Source} {outlet after : σ}
    (puts : Outlet.putEach outlet source.chunks = (.ok (), after)) :
    (∀ fault, source.fault? = some fault →
        (source.copy outlet).outcome = .error fault ∧ (source.copy outlet).outlet = after) ∧
      (source.fault? = none →
        (source.copy outlet).outcome =
            (Outlet.flush after).1.map (fun _ => source.delivered.length) ∧
          (source.copy outlet).outlet = (Outlet.flush after).2) := by
  have chunked : source.chunks = source.chunks ++ [] := (List.append_nil _).symm
  obtain ⟨copied, none, same⟩ := copy_from_of_puts chunked puts 0
  obtain ⟨rest, read⟩ := next_of_chunks_nil none
  rw [same] at read
  rw [copy, copied, flatten_chunks, Nat.zero_add, copy_from_step, read]
  constructor
  · intro fault failed
    rw [failed]
    exact ⟨rfl, rfl⟩
  · intro sound
    rw [sound]
    exact ⟨rfl, rfl⟩

/-- Where a put fails, the copy ends with it, and the chunk that was to be put is the last
that has been read. -/
theorem copy_of_puts_error {source : Source} {outlet after : σ} {fault : Fault}
    (puts : Outlet.putEach outlet source.chunks = (.error fault, after)) :
    ∃ earlier last between, earlier ++ [last] <+: source.chunks ∧
      Outlet.putEach outlet earlier = (.ok (), between) ∧
      Outlet.put between last = (.error fault, after) ∧
      source.copy outlet =
        { outcome := .error fault, source := source.afterReads (earlier.length + 1),
          outlet := after } := by
  obtain ⟨earlier, last, later, between, parts, before, failed⟩ := Outlet.put_each_error puts
  obtain ⟨copied, chunked, -⟩ := copy_from_of_puts parts before 0
  obtain ⟨rest, read, -⟩ := next_of_chunks_cons chunked
  refine ⟨earlier, last, between, ⟨later, by rw [parts]; simp⟩, before, failed, ?_⟩
  have left : source.afterReads (earlier.length + 1) = rest := by
    rw [afterReads, Function.iterate_succ_apply', ← afterReads, read]
  rw [copy, copied, copy_from_step, read, left]
  simp only [failed]

/-! ## Copies into a sink -/

variable {source : Source} {sink : Sink} {fault : Fault}

theorem copy_of_refusal (refused : (Outlet.putEach sink source.chunks).1 = .error fault) :
    (source.copy sink).outcome = .error fault ∧
      ∃ earlier last taken left before, earlier ++ [last] <+: source.chunks ∧
        last = taken ++ left ∧ left ≠ [] ∧ last.length ≤ bufferSize ∧
        sink.Took (earlier.flatten ++ taken) before ∧
        before.Refuses .sinkStalled left fault (source.copy sink).outlet ∧
        sink.Took (earlier.flatten ++ taken) (source.copy sink).outlet ∧
        (source.copy sink).source = source.afterReads (earlier.length + 1) := by
  have puts : Outlet.putEach sink source.chunks =
      (.error fault, (Outlet.putEach sink source.chunks).2) := Prod.ext refused rfl
  obtain ⟨earlier, last, between, read, earlierPuts, failed, copied⟩ := copy_of_puts_error puts
  obtain ⟨taken, left, before, parts, nonempty, took, refuses⟩ := Sink.write_all_error failed
  have short : last.length ≤ bufferSize :=
    length_of_mem_chunks source last (read.subset (by simp))
  have tookAll := (Sink.took_of_put_each earlierPuts).trans took
  have stillTook := tookAll.trans refuses.took
  rw [List.append_nil] at stillTook
  rw [copied]
  exact ⟨rfl, earlier, last, taken, left, before, read, parts, nonempty, short, tookAll, refuses,
    stillTook, rfl⟩

theorem copy_of_failing_source (taken : (Outlet.putEach sink source.chunks).1 = .ok ())
    (failed : source.fault? = some fault) :
    (source.copy sink).outcome = .error fault ∧
      sink.Took source.delivered (source.copy sink).outlet := by
  have puts : Outlet.putEach sink source.chunks =
      (.ok (), (Outlet.putEach sink source.chunks).2) := Prod.ext taken rfl
  obtain ⟨outcome, outlet⟩ := (copy_of_puts_ok puts).1 fault failed
  rw [outcome, outlet, ← flatten_chunks]
  exact ⟨rfl, Sink.took_of_put_each puts⟩

theorem copy_of_sound_source (taken : (Outlet.putEach sink source.chunks).1 = .ok ())
    (sound : source.fault? = none) :
    (source.copy sink).outcome = sink.flushFault.elim (.ok source.delivered.length) .error ∧
      sink.Flushed source.delivered (source.copy sink).outlet := by
  have puts : Outlet.putEach sink source.chunks =
      (.ok (), (Outlet.putEach sink source.chunks).2) := Prod.ext taken rfl
  have took := Sink.took_of_put_each puts
  have flushing := Sink.flush_outcome (Outlet.putEach sink source.chunks).2
  rw [took.flush_fault] at flushing
  obtain ⟨outcome, outlet⟩ := (copy_of_puts_ok puts).2 sound
  rw [outcome, outlet, ← flatten_chunks]
  refine ⟨?_, took.flushed⟩
  change (Sink.flush (Outlet.putEach sink source.chunks).2).1.map _ = _
  rw [flushing]
  cases sink.flushFault <;> rfl

theorem copy_outcome_eq_ok {count : Nat} :
    (source.copy sink).outcome = .ok count ↔
      (Outlet.putEach sink source.chunks).1 = .ok () ∧ source.fault? = none ∧
        sink.flushFault = none ∧ count = source.delivered.length := by
  cases puts : (Outlet.putEach sink source.chunks).1 with
  | error met => simp [(copy_of_refusal puts).1]
  | ok done =>
      cases failed : source.fault? with
      | some met => simp [(copy_of_failing_source puts failed).1]
      | none =>
          rw [(copy_of_sound_source puts failed).1]
          cases sink.flushFault <;> simp [eq_comm]

/-- A copy succeeds just where nothing fails, and then all bytes are in the sink and one flush
behind them. A failing source does not keep any byte from the sink, nor does it flush; a
failing write is the last call of all, and costs at most the rest of the last chunk that was
read; a failing flush costs nothing. -/
theorem copy_accounts_for_every_byte (source : Source) (sink : Sink) :
    (∀ count, (source.copy sink).outcome = .ok count ↔
        (Outlet.putEach sink source.chunks).1 = .ok () ∧ source.fault? = none ∧
          sink.flushFault = none ∧ count = source.delivered.length) ∧
      (∀ count, (source.copy sink).outcome = .ok count →
        sink.Flushed source.delivered (source.copy sink).outlet) ∧
      (∀ fault, (Outlet.putEach sink source.chunks).1 = .ok () → source.fault? = some fault →
        (source.copy sink).outcome = .error fault ∧
          sink.Took source.delivered (source.copy sink).outlet) ∧
      (∀ fault, (Outlet.putEach sink source.chunks).1 = .error fault →
        (source.copy sink).outcome = .error fault ∧
          ∃ earlier last taken left before, earlier ++ [last] <+: source.chunks ∧
            last = taken ++ left ∧ left ≠ [] ∧ last.length ≤ bufferSize ∧
            sink.Took (earlier.flatten ++ taken) before ∧
            before.Refuses .sinkStalled left fault (source.copy sink).outlet ∧
            sink.Took (earlier.flatten ++ taken) (source.copy sink).outlet ∧
            (source.copy sink).source = source.afterReads (earlier.length + 1)) ∧
      (∀ fault, (Outlet.putEach sink source.chunks).1 = .ok () → source.fault? = none →
        sink.flushFault = some fault →
        (source.copy sink).outcome = .error fault ∧
          sink.Flushed source.delivered (source.copy sink).outlet) := by
  refine ⟨fun count => copy_outcome_eq_ok, ?_, fun fault => copy_of_failing_source,
    fun fault => copy_of_refusal, ?_⟩
  · intro count succeeded
    obtain ⟨taken, sound, -, -⟩ := copy_outcome_eq_ok.mp succeeded
    exact (copy_of_sound_source taken sound).2
  · intro fault taken sound flushing
    obtain ⟨outcome, flushed⟩ := copy_of_sound_source taken sound
    rw [flushing] at outcome
    exact ⟨outcome, flushed⟩

namespace SampleCopy

def whole : Source := [.data [1, 2, 3], .interrupted, .data [4], .endOfFile, .data [5]]

def broken : Source := [.data [1, 2], .failure (.reported "gone")]

def slow : Sink := { Sink.unlimited with script := [.accept 2, .interrupted] }

def small : Sink := { Sink.unlimited with script := [.accept 2], room := some 3 }

def stuck : Sink := { Sink.unlimited with flushFault := some (.reported "stuck") }

end SampleCopy

open SampleCopy in
theorem sample_copies_account :
    (whole.copy slow).outcome = .ok 4 ∧ slow.Flushed [1, 2, 3, 4] (whole.copy slow).outlet ∧
      (Outlet.putEach slow broken.chunks).1 = .ok () ∧
      broken.fault? = some (.reported "gone") ∧
      slow.Took [1, 2] (broken.copy slow).outlet ∧
      (Outlet.putEach small whole.chunks).1 = .error .sinkFull ∧
      (whole.copy small).outcome = .error .sinkFull ∧
      (Outlet.putEach stuck whole.chunks).1 = .ok () ∧ whole.fault? = none ∧
      stuck.flushFault = some (.reported "stuck") ∧
      (whole.copy stuck).outcome = .error (.reported "stuck") := by
  have slowTakes : (Outlet.putEach slow whole.chunks).1 = .ok () := by cbv
  have slowTakesBroken : (Outlet.putEach slow broken.chunks).1 = .ok () := by cbv
  have smallRefuses : (Outlet.putEach small whole.chunks).1 = .error .sinkFull := by cbv
  have stuckTakes : (Outlet.putEach stuck whole.chunks).1 = .ok () := by cbv
  obtain ⟨succeeds, flushed, -, -, -⟩ := copy_accounts_for_every_byte whole slow
  have copied : (whole.copy slow).outcome = .ok 4 :=
    (succeeds 4).mpr ⟨slowTakes, rfl, rfl, rfl⟩
  obtain ⟨-, -, sourceFails, -, -⟩ := copy_accounts_for_every_byte broken slow
  obtain ⟨-, -, -, writeFails, -⟩ := copy_accounts_for_every_byte whole small
  obtain ⟨-, -, -, -, flushFails⟩ := copy_accounts_for_every_byte whole stuck
  exact ⟨copied, flushed 4 copied, slowTakesBroken, rfl, (sourceFails _ slowTakesBroken rfl).2,
    smallRefuses, (writeFails _ smallRefuses).1, stuckTakes, rfl, rfl,
    (flushFails _ stuckTakes rfl rfl).1⟩

end Source

end ArchiveBrowser

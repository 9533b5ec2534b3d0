import ArchiveBrowser.Proofs.Stream.Delivered
import Mathlib.Data.List.Forall2

/-!
# Reads of any sizes

A source may be read with buffers of any sizes, empty ones included. `read_chunk_cases` says what
one call takes from the bytes to come, and by induction a run of calls hands them out from the
front. No size of a buffer and no interruption makes a difference to them, or to how the source
ends.
-/

set_option autoImplicit false

namespace ArchiveBrowser.Source

namespace Chunk

/-- What a call with a buffer of this size may answer. -/
def Fits (size : Nat) : Chunk → Prop
  | data bytes => bytes.length ≤ size ∧ (size ≠ 0 → bytes ≠ [])
  | endOfFile | failed _ => size ≠ 0

def goesOn : Chunk → Bool
  | data _ => true
  | endOfFile | failed _ => false

def bytes : Chunk → Bytes
  | data bytes => bytes
  | endOfFile | failed _ => []

def failure? : Chunk → Option Fault
  | failed fault => some fault
  | data _ | endOfFile => none

end Chunk

def Item.failure? : Item → Option Fault
  | failure fault => some fault
  | data _ | endOfFile | interrupted => none

/-- What calls with buffers of these sizes answer, one after the other, and what they leave. -/
def readEach (source : Source) : (sizes : List Nat) → List Chunk × Source
  | [] => ([], source)
  | size :: sizes =>
    let (chunk, rest) := source.readChunk size
    let (chunks, last) := rest.readEach sizes
    (chunk :: chunks, last)

/-- The bytes in the answers up to the first end of file or failure. -/
def returned (answers : List Chunk) : Bytes :=
  (answers.takeWhile Chunk.goesOn).flatMap Chunk.bytes

/-- What a read answers when there are no more bytes to come. -/
def ending (source : Source) : Chunk :=
  source.fault?.elim .endOfFile .failed

def uninterrupted (source : Source) : Source :=
  source.filter (· ≠ .interrupted)

theorem read_each_cons {source rest last : Source} {size : Nat} {sizes : List Nat} {chunk : Chunk}
    {chunks : List Chunk} (read : source.readChunk size = (chunk, rest))
    (reads : rest.readEach sizes = (chunks, last)) :
    source.readEach (size :: sizes) = (chunk :: chunks, last) := by
  rw [readEach, read]
  simp only [reads]

theorem ending_ends (source : Source) : source.ending.goesOn = false := by
  unfold ending
  cases source.fault? <;> rfl

/-- A call takes what it returns off the bytes to come, or finds that there are none. -/
theorem read_chunk_cases (source : Source) (size : Nat) :
    (∃ bytes rest, source.readChunk size = (.data bytes, rest) ∧ (Chunk.data bytes).Fits size ∧
        source.delivered = bytes ++ rest.delivered ∧ source.fault? = rest.fault?) ∨
      ∃ rest, source.readChunk size = (source.ending, rest) ∧ size ≠ 0 ∧
        source.delivered = [] := by
  unfold readChunk
  split
  · rename_i empty
    have fits : (Chunk.data []).Fits size :=
      ⟨Nat.zero_le size, fun positive => absurd empty positive⟩
    exact .inl ⟨[], source, rfl, fits, rfl, rfl⟩
  · rename_i positive
    cases read : source.next size with
    | mk chunk rest =>
        cases chunk with
        | data bytes =>
            obtain ⟨front, same⟩ := next_data read
            exact .inl ⟨bytes, rest, rfl, bounds_of_next_data read, front, same⟩
        | endOfFile =>
            obtain ⟨nothing, sound⟩ := next_end_of_file read
            right
            rw [ending, sound]
            exact ⟨rest, rfl, positive, nothing⟩
        | failed fault =>
            obtain ⟨nothing, failed⟩ := next_failed read
            right
            rw [ending, failed]
            exact ⟨rest, rfl, positive, nothing⟩

/-- Calls with buffers of these sizes have answers that hand the bytes of the source out in order,
and end as the source does. -/
structure ReadsIn (source : Source) (sizes : List Nat) (answers : List Chunk) : Prop where
  fits : List.Forall₂ Chunk.Fits sizes answers
  in_front : returned answers <+: source.delivered
  complete : ∀ answer, answers.find? (fun answer => !answer.goesOn) = some answer →
    returned answers = source.delivered ∧ answer = source.ending
  reaches_end : source.delivered.length < sizes.countP (· ≠ 0) →
    ∃ answer ∈ answers, answer.goesOn = false

theorem ReadsIn.nil (source : Source) : source.ReadsIn [] [] where
  fits := .nil
  in_front := List.nil_prefix
  complete := by simp
  reaches_end := by simp

theorem ReadsIn.cons_data {source rest : Source} {size : Nat} {sizes : List Nat} {bytes : Bytes}
    {answers : List Chunk} (fits : (Chunk.data bytes).Fits size)
    (front : source.delivered = bytes ++ rest.delivered) (same : source.fault? = rest.fault?)
    (reads : rest.ReadsIn sizes answers) :
    source.ReadsIn (size :: sizes) (.data bytes :: answers) := by
  have gathered : returned (.data bytes :: answers) = bytes ++ returned answers := rfl
  constructor
  · exact .cons fits reads.fits
  · rw [gathered, front, List.prefix_append_right_inj]
    exact reads.in_front
  · intro answer first
    obtain ⟨whole, last⟩ := reads.complete answer first
    rw [gathered, front, whole, last, ending, ending, same]
    exact ⟨rfl, rfl⟩
  · intro many
    have fewer : rest.delivered.length < sizes.countP (· ≠ 0) := by
      rw [front, List.length_append] at many
      by_cases empty : size = 0
      · rw [List.countP_cons_of_neg (by simpa using empty)] at many
        omega
      · have positive := List.length_pos_iff.mpr (fits.2 empty)
        rw [List.countP_cons_of_pos (by simpa using empty)] at many
        omega
    obtain ⟨answer, member, ended⟩ := reads.reaches_end fewer
    exact ⟨answer, List.mem_cons_of_mem _ member, ended⟩

theorem ReadsIn.cons_ending {source : Source} {size : Nat} {sizes : List Nat}
    {answers : List Chunk} (positive : size ≠ 0) (nothing : source.delivered = [])
    (fits : List.Forall₂ Chunk.Fits sizes answers) :
    source.ReadsIn (size :: sizes) (source.ending :: answers) := by
  have ended := ending_ends source
  have none : returned (source.ending :: answers) = [] := by
    simp [returned, ended]
  constructor
  · refine .cons ?_ fits
    unfold ending
    cases source.fault? <;> exact positive
  · rw [none]
    exact List.nil_prefix
  · intro answer first
    rw [List.find?_cons_of_pos (by simp [ended])] at first
    cases first
    exact ⟨by rw [none, nothing], rfl⟩
  · intro _
    exact ⟨source.ending, List.mem_cons_self, ended⟩

theorem reads_in (source : Source) (sizes : List Nat) :
    source.ReadsIn sizes (source.readEach sizes).1 := by
  induction sizes generalizing source with
  | nil => exact ReadsIn.nil source
  | cons size sizes ih =>
      rcases source.read_chunk_cases size with
        ⟨bytes, rest, read, fits, front, same⟩ | ⟨rest, read, positive, nothing⟩
      · rw [read_each_cons read rfl]
        exact (ih rest).cons_data fits front same
      · rw [read_each_cons read rfl]
        exact ReadsIn.cons_ending positive nothing (ih rest).fits

/-- A read answers as if there were no interruptions. -/
theorem next_uninterrupted (source : Source) (size : Nat) :
    source.uninterrupted.next size =
      ((source.next size).1, (source.next size).2.uninterrupted) := by
  fun_induction next size source with
  | case1 => rfl
  | case2 held later empty => simp [uninterrupted, next, empty]
  | case3 held later full fits => simp [uninterrupted, next, full, fits]
  | case4 held later full long => simp [uninterrupted, next, full, long]
  | case5 => rfl
  | case6 later ih => exact ih
  | case7 => rfl

theorem read_chunk_uninterrupted (source : Source) (size : Nat) :
    source.uninterrupted.readChunk size =
      ((source.readChunk size).1, (source.readChunk size).2.uninterrupted) := by
  unfold readChunk
  split
  · rfl
  · exact next_uninterrupted source size

theorem read_each_uninterrupted (source : Source) (sizes : List Nat) :
    (source.uninterrupted.readEach sizes).1 = (source.readEach sizes).1 := by
  induction sizes generalizing source with
  | nil => rfl
  | cons size sizes ih =>
      rw [read_each_cons (source.read_chunk_uninterrupted size) rfl, ih]
      rfl

/-- A read reports a failure by using it up. -/
theorem failures_next (source : Source) (size : Nat) :
    source.filterMap Item.failure? =
      (source.next size).1.failure?.toList ++ (source.next size).2.filterMap Item.failure? := by
  fun_induction next size source with
  | case1 | case2 | case3 | case4 | case5 | case7 => rfl
  | case6 later ih => exact ih

theorem failures_read_chunk {source rest : Source} {size : Nat} {chunk : Chunk}
    (read : source.readChunk size = (chunk, rest)) :
    source.filterMap Item.failure? =
      chunk.failure?.toList ++ rest.filterMap Item.failure? := by
  unfold readChunk at read
  split at read
  · cases read
    rfl
  · have used := source.failures_next size
    rwa [read] at used

theorem failures_read_each (source : Source) (sizes : List Nat) :
    (source.readEach sizes).1.filterMap Chunk.failure? <+: source.filterMap Item.failure? := by
  induction sizes generalizing source with
  | nil => exact List.nil_prefix
  | cons size sizes ih =>
      cases read : source.readChunk size with
      | mk chunk rest =>
          rw [read_each_cons read rfl, failures_read_chunk read]
          cases chunk with
          | data | endOfFile => exact ih rest
          | failed fault => exact (List.prefix_cons_inj fault).mpr (ih rest)

/-- Calls with an empty buffer may be left out. -/
theorem read_each_without_empty (source : Source) (sizes : List Nat) :
    returned (source.readEach (sizes.filter (· ≠ 0))).1 = returned (source.readEach sizes).1 ∧
      (source.readEach (sizes.filter (· ≠ 0))).2 = (source.readEach sizes).2 := by
  induction sizes generalizing source with
  | nil => exact ⟨rfl, rfl⟩
  | cons size sizes ih =>
      by_cases empty : size = 0
      · rw [List.filter_cons_of_neg (by simpa using empty), empty]
        exact ih source
      · rw [List.filter_cons_of_pos (by simpa using empty)]
        cases read : source.readChunk size with
        | mk chunk rest =>
            obtain ⟨bytes, last⟩ := ih rest
            rw [read_each_cons read rfl, read_each_cons read rfl]
            refine ⟨?_, last⟩
            cases chunk with
            | data held => exact congrArg (held ++ ·) bytes
            | endOfFile | failed fault => rfl

/-- Whatever the sizes of the buffers, the answers hand out the bytes of the source from the front,
and all of them before the first end of file or failure, which is the one of the source. A buffer
that is not empty gets at least one byte and no more than it holds, unless the source ends. What is
reported as a failure is one, an interruption makes no difference to any answer, and an empty
buffer none to the source. -/
theorem reads_of_any_sizes_agree (source : Source) (sizes : List Nat) :
    source.ReadsIn sizes (source.readEach sizes).1 ∧
      (source.readEach sizes).1.filterMap Chunk.failure? <+: source.filterMap Item.failure? ∧
      (source.uninterrupted.readEach sizes).1 = (source.readEach sizes).1 ∧
      source.readChunk 0 = (.data [], source) ∧
      returned (source.readEach (sizes.filter (· ≠ 0))).1 = returned (source.readEach sizes).1 ∧
      (source.readEach (sizes.filter (· ≠ 0))).2 = (source.readEach sizes).2 :=
  ⟨source.reads_in sizes, source.failures_read_each sizes, source.read_each_uninterrupted sizes,
    rfl, source.read_each_without_empty sizes⟩

namespace SampleReads

def flawed : Source :=
  [.interrupted, .data [1, 2, 3], .interrupted, .interrupted, .data [4], .failure .checksumMismatch,
    .data [5]]

end SampleReads

open SampleReads in
theorem sample_reads_agree :
    flawed.ReadsIn [0, 2, 0, 5, 1, 7, 3]
        [.data [], .data [1, 2], .data [], .data [3], .data [4], .failed .checksumMismatch,
          .data [5]] ∧
      flawed.ReadsIn [9, 9, 9] [.data [1, 2, 3], .data [4], .failed .checksumMismatch] ∧
      flawed.delivered = [1, 2, 3, 4] ∧ flawed.ending = .failed .checksumMismatch := by
  obtain ⟨mixed, -⟩ := reads_of_any_sizes_agree flawed [0, 2, 0, 5, 1, 7, 3]
  obtain ⟨whole, -⟩ := reads_of_any_sizes_agree flawed [9, 9, 9]
  exact ⟨mixed, whole, rfl, rfl⟩

end ArchiveBrowser.Source

import ArchiveBrowser.Stream.Sink

/-!
# What writing leaves in a sink

A sink keeps a record of the calls made to it, and what it has received is read off that
record. `write_all_ok` and `write_all_error` say all that a sequence of writes does: it
takes the bytes from the front, and where it breaks off, the last write is the one that
took nothing.
-/

set_option autoImplicit false

namespace ArchiveBrowser.Sink

def Written.count : Written → Nat
  | accepted count => count
  | interrupted | failed _ => 0

/-- Writes alone have brought a sink from one state to the other, and it took `bytes`. -/
structure Took (sink : Sink) (bytes : Bytes) (after : Sink) : Prop where
  received : after.received = sink.received ++ bytes
  writes : ∃ writes, after.calls = writes ++ sink.calls ∧ Call.flush ∉ writes
  flush_fault : after.flushFault = sink.flushFault

/-- The sink took `bytes`, and after the last of its writes it was flushed once. -/
structure Flushed (sink : Sink) (bytes : Bytes) (after : Sink) : Prop where
  received : after.received = sink.received ++ bytes
  calls : ∃ writes, after.calls = .flush :: (writes ++ sink.calls) ∧ Call.flush ∉ writes

/-- The write of `offered` brings nothing about but `fault`. -/
def Refuses (sink : Sink) (stalled : Fault) (offered : Bytes) (fault : Fault)
    (after : Sink) : Prop :=
  sink.write offered = (.failed fault, after) ∨
    (sink.write offered = (.accepted 0, after) ∧ fault = stalled)

theorem received_of_calls {sink after : Sink} {call : Call}
    (calls : after.calls = call :: sink.calls) :
    after.received = sink.received ++ call.received := by
  simp [received, calls]

theorem calls_flush (sink : Sink) : sink.flush.2.calls = .flush :: sink.calls := by
  unfold flush
  cases sink.flushFault <;> rfl

theorem flush_outcome (sink : Sink) : sink.flush.1 = sink.flushFault.elim (.ok ()) .error := by
  unfold flush
  cases sink.flushFault <;> rfl

theorem grant_record (sink : Sink) (offered : Bytes) (most : Nat) :
    (sink.grant offered most).2 = sink.record offered (sink.grant offered most).1.count := by
  unfold grant
  split
  · rfl
  · dsimp only
    split <;> rfl

theorem write_record (sink : Sink) (offered : Bytes) :
    (sink.write offered).2 = sink.record offered (sink.write offered).1.count := by
  unfold write
  split
  · exact grant_record ..
  · exact grant_record ..
  · rfl
  · rfl

theorem eq_record_of_write {sink after : Sink} {offered : Bytes} {written : Written}
    (wrote : sink.write offered = (written, after)) :
    after = sink.record offered written.count := by
  have same := write_record sink offered
  rwa [wrote] at same

namespace Took

theorem refl (sink : Sink) : sink.Took [] sink where
  received := by simp
  writes := ⟨[], by simp⟩
  flush_fault := rfl

theorem trans {sink between after : Sink} {first second : Bytes}
    (before : sink.Took first between) (behind : between.Took second after) :
    sink.Took (first ++ second) after where
  received := by rw [behind.received, before.received, List.append_assoc]
  writes := by
    obtain ⟨earlier, recorded, noFlush⟩ := before.writes
    obtain ⟨later, laterRecorded, laterNoFlush⟩ := behind.writes
    refine ⟨later ++ earlier, ?_, ?_⟩
    · rw [laterRecorded, recorded, List.append_assoc]
    · simp [noFlush, laterNoFlush]
  flush_fault := behind.flush_fault.trans before.flush_fault

theorem of_write {sink after : Sink} {offered : Bytes} {written : Written}
    (wrote : sink.write offered = (written, after)) :
    sink.Took (offered.take written.count) after := by
  have record := eq_record_of_write wrote
  have calls : after.calls = .write offered written.count :: sink.calls := by
    rw [record]
    rfl
  constructor
  · exact received_of_calls calls
  · exact ⟨[.write offered written.count], by simp [calls]⟩
  · rw [record]
    rfl

theorem flushed {sink written : Sink} {bytes : Bytes} (took : sink.Took bytes written) :
    sink.Flushed bytes written.flush.2 where
  received := by
    rw [received_of_calls (calls_flush written), took.received]
    exact List.append_nil _
  calls := by
    obtain ⟨writes, recorded, noFlush⟩ := took.writes
    exact ⟨writes, by rw [calls_flush, recorded], noFlush⟩

end Took

theorem Refuses.took {sink after : Sink} {stalled fault : Fault} {offered : Bytes}
    (refuses : sink.Refuses stalled offered fault after) : sink.Took [] after := by
  rcases refuses with failed | ⟨nothing, -⟩
  · exact Took.of_write failed
  · exact Took.of_write nothing

theorem write_all_ok {stalled : Fault} {sink after : Sink} {bytes : Bytes}
    (wrote : sink.writeAll stalled bytes = (.ok (), after)) : sink.Took bytes after := by
  fun_induction writeAll stalled sink bytes with
  | case1 sink =>
      obtain ⟨-, rfl⟩ := Prod.mk.inj wrote
      exact Took.refl sink
  | case2 => simp at wrote
  | case3 sink bytes full count between step ih =>
      have later := (Took.of_write step).trans (ih wrote)
      rwa [Written.count, List.take_append_drop] at later
  | case4 sink bytes full between step ih => exact (Took.of_write step).trans (ih wrote)
  | case5 => simp at wrote

/-- Where the writes break off, they have taken a proper beginning of the bytes, and the
last of them was offered all the rest and refused it. -/
theorem write_all_error {stalled fault : Fault} {sink after : Sink} {bytes : Bytes}
    (wrote : sink.writeAll stalled bytes = (.error fault, after)) :
    ∃ taken left before, bytes = taken ++ left ∧ left ≠ [] ∧ sink.Took taken before ∧
      before.Refuses stalled left fault after := by
  fun_induction writeAll stalled sink bytes with
  | case1 => simp at wrote
  | case2 sink bytes full between step =>
      obtain ⟨same, rfl⟩ := Prod.mk.inj wrote
      cases same
      exact ⟨[], bytes, sink, rfl, full, Took.refl sink, .inr ⟨step, rfl⟩⟩
  | case3 sink bytes full count between step ih =>
      obtain ⟨taken, left, before, rest, nonempty, took, refuses⟩ := ih wrote
      refine ⟨bytes.take (count + 1) ++ taken, left, before, ?_, nonempty,
        (Took.of_write step).trans took, refuses⟩
      rw [List.append_assoc, ← rest, List.take_append_drop]
  | case4 sink bytes full between step ih =>
      obtain ⟨taken, left, before, parts, nonempty, took, refuses⟩ := ih wrote
      exact ⟨taken, left, before, parts, nonempty, (Took.of_write step).trans took, refuses⟩
  | case5 sink bytes full met between step =>
      obtain ⟨same, rfl⟩ := Prod.mk.inj wrote
      cases same
      exact ⟨[], bytes, sink, rfl, full, Took.refl sink, .inl step⟩

end ArchiveBrowser.Sink

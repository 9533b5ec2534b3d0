import ArchiveBrowser.Proofs.Stream.Written

/-!
# Sinks that take everything

A sink without a limit that neither fails nor stalls, though it may take little at a time and
be interrupted. Writing to it succeeds, whatever is written.
-/

set_option autoImplicit false

namespace ArchiveBrowser.Sink

/-- A write that is answered so takes something, or is to be tried again. -/
def Reply.isAccepting : Reply → Bool
  | .accept most => most ≠ 0
  | .interrupted => true
  | .failure _ => false

structure Accepts (sink : Sink) : Prop where
  unlimited : sink.room = none
  accepting : ∀ reply ∈ sink.script, reply.isAccepting = true

theorem Accepts.record {sink : Sink} (accepts : sink.Accepts) (offered : Bytes) (count : Nat) :
    (sink.record offered count).Accepts where
  unlimited := by
    unfold Sink.record
    rw [accepts.unlimited]
    rfl
  accepting := by
    intro reply member
    exact accepts.accepting reply (List.mem_of_mem_tail member)

/-- Without a limit, a write takes as much as its answer allows. -/
theorem Accepts.grant {sink : Sink} (accepts : sink.Accepts) (offered : Bytes) (most : Nat) :
    (sink.grant offered most).1 = .accepted (min most offered.length) := by
  unfold Sink.grant
  rw [accepts.unlimited]

theorem Accepts.write {sink after : Sink} (accepts : sink.Accepts) {offered : Bytes}
    {written : Written} (nonempty : offered ≠ [])
    (wrote : sink.write offered = (written, after)) :
    after.Accepts ∧ (written = .interrupted ∨ ∃ count, written = .accepted (count + 1)) := by
  have positive := List.length_pos_iff.mpr nonempty
  have taken : ∀ most, most ≠ 0 → (sink.grant offered most).1 = written →
      ∃ count, written = .accepted (count + 1) := by
    intro most some same
    refine ⟨min most offered.length - 1, ?_⟩
    rw [← same, accepts.grant]
    congr 1
    omega
  have outcome : (sink.write offered).1 = written := by rw [wrote]
  constructor
  · rw [eq_record_of_write wrote]
    exact accepts.record offered _
  · unfold Sink.write at outcome
    split at outcome
    · exact .inr (taken offered.length (by omega) outcome)
    · rename_i most rest scripted
      have accepting := accepts.accepting (.accept most) (by simp [scripted])
      exact .inr (taken most (by simpa [Reply.isAccepting] using accepting) outcome)
    · exact .inl outcome.symm
    · rename_i fault rest scripted
      have accepting := accepts.accepting (.failure fault) (by simp [scripted])
      cases accepting

/-- A sink that takes everything has taken all of the bytes, and still takes everything. -/
theorem Accepts.write_all {sink : Sink} (accepts : sink.Accepts) (stalled : Fault)
    (bytes : Bytes) :
    ∃ after, sink.writeAll stalled bytes = (.ok (), after) ∧ after.Accepts := by
  fun_induction Sink.writeAll stalled sink bytes with
  | case1 sink => exact ⟨sink, rfl, accepts⟩
  | case2 sink bytes full after step =>
      obtain ⟨-, interrupted | ⟨count, taken⟩⟩ := accepts.write full step
      · cases interrupted
      · cases taken
  | case3 sink bytes full count after step ih => exact ih (accepts.write full step).1
  | case4 sink bytes full after step ih => exact ih (accepts.write full step).1
  | case5 sink bytes full fault after step =>
      obtain ⟨-, interrupted | ⟨count, taken⟩⟩ := accepts.write full step
      · cases interrupted
      · cases taken

end ArchiveBrowser.Sink

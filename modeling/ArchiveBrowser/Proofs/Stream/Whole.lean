import ArchiveBrowser.Proofs.Stream.Delivered

/-!
# Sources of known bytes

A source made from bytes is used up from the front: whatever reads of it hand out is a prefix
of the bytes, and what it is then left with is the source made from the rest. Reading to the
end and digesting leave nothing.
-/

set_option autoImplicit false

namespace ArchiveBrowser.Source

theorem next_of_bytes {size : Nat} {bytes : Bytes} (nonempty : bytes ≠ []) :
    (ofBytes bytes).next size = (.data (bytes.take size), ofBytes (bytes.drop size)) := by
  have full : ¬bytes.isEmpty = true := by simpa using nonempty
  unfold ofBytes
  rw [if_neg full, next, if_neg full]
  by_cases fits : bytes.length ≤ size
  · rw [if_pos fits, List.take_of_length_le fits, List.drop_eq_nil_of_le fits]
    rfl
  · have left : ¬(bytes.drop size).isEmpty = true := by
      rw [List.isEmpty_iff, List.drop_eq_nil_iff]
      exact fits
    rw [if_neg fits, if_neg left]

/-- A read of a source of known bytes finds that there are none, or takes the first of them. -/
theorem next_of_bytes_cases {bytes : Bytes} {size : Nat} {chunk : Chunk} {rest : Source}
    (read : (ofBytes bytes).next size = (chunk, rest)) :
    (bytes = [] ∧ chunk = .endOfFile ∧ rest = ofBytes []) ∨
      (chunk = .data (bytes.take size) ∧ rest = ofBytes (bytes.drop size)) := by
  by_cases empty : bytes = []
  · left
    subst empty
    cases read
    exact ⟨rfl, rfl, rfl⟩
  · right
    rw [next_of_bytes empty] at read
    cases read
    exact ⟨rfl, rfl⟩

theorem read_up_to_of_bytes (bytes : Bytes) (size : Nat) :
    (ofBytes bytes).readUpTo size = (.ok (bytes.take size), ofBytes (bytes.drop size)) := by
  generalize made : ofBytes bytes = source
  fun_induction readUpTo source size generalizing bytes with
  | case1 source => rw [List.take_zero, List.drop_zero, made]
  | case2 source size nonzero rest read =>
      subst made
      rcases next_of_bytes_cases read with ⟨rfl, -, rfl⟩ | ⟨data, -⟩
      · rw [List.take_nil, List.drop_nil]
      · cases data
  | case3 source size nonzero fault rest read =>
      subst made
      rcases next_of_bytes_cases read with ⟨-, ended, -⟩ | ⟨data, -⟩
      · cases ended
      · cases data
  | case4 source size nonzero piece rest read later last reading ih =>
      subst made
      rcases next_of_bytes_cases read with ⟨-, ended, -⟩ | ⟨data, rfl⟩
      · cases ended
      · cases data
        have more := ih (bytes.drop size) rfl
        rw [reading] at more
        cases more
        -- A read of less than was asked for has come to the end.
        have whole : bytes.take size ++ (bytes.drop size).take (size - (bytes.take size).length) =
            bytes.take size := by
          by_cases fits : bytes.length ≤ size
          · rw [List.drop_eq_nil_of_le fits, List.take_nil, List.append_nil]
          · rw [List.length_take_of_le (Nat.le_of_not_le fits), Nat.sub_self, List.take_zero,
              List.append_nil]
        have left : (bytes.drop size).drop (size - (bytes.take size).length) =
            bytes.drop size := by
          by_cases fits : bytes.length ≤ size
          · rw [List.drop_eq_nil_of_le fits, List.drop_nil]
          · rw [List.length_take_of_le (Nat.le_of_not_le fits), Nat.sub_self, List.drop_zero]
        simp only [Except.map, whole, left]

variable {σ : Type} [Outlet σ]

/-- A copy to its end leaves nothing of a source of known bytes. -/
theorem copy_from_leaves_nothing (take : σ → Bytes → σ)
    (puts : ∀ (outlet : σ) bytes, Outlet.put outlet bytes = (.ok (), take outlet bytes))
    (bytes : Bytes) (outlet : σ) (total : Nat) :
    ((ofBytes bytes).copyFrom outlet total).source = ofBytes [] := by
  generalize made : ofBytes bytes = source
  fun_induction copyFrom source outlet total generalizing bytes with
  | case1 source outlet total rest read flushed kept flush =>
      subst made
      rcases next_of_bytes_cases read with ⟨-, -, nothing⟩ | ⟨data, -⟩
      · exact nothing
      · cases data
  | case2 source outlet total fault rest read =>
      subst made
      rcases next_of_bytes_cases read with ⟨-, ended, -⟩ | ⟨data, -⟩
      · cases ended
      · cases data
  | case3 source outlet total piece rest read done taken put ih =>
      subst made
      rcases next_of_bytes_cases read with ⟨-, ended, -⟩ | ⟨-, rfl⟩
      · cases ended
      · exact ih (bytes.drop bufferSize) rfl
  | case4 source outlet total piece rest read fault refused put =>
      rw [puts] at put
      cases put

theorem read_all_of_bytes_leaves_nothing (bytes : Bytes) :
    (ofBytes bytes).readAll = (.ok bytes, ofBytes []) := by
  have value := read_all_of_bytes bytes
  have left : (ofBytes bytes).readAll.2 = ofBytes [] :=
    copy_from_leaves_nothing (fun (held : Buffer) piece => ⟨piece :: held.pieces⟩) (fun _ _ => rfl)
      bytes Buffer.empty 0
  exact Prod.ext value left

theorem digest_of_bytes (algorithm : Digest.Algorithm) (bytes : Bytes) :
    (ofBytes bytes).digest algorithm = (.ok (algorithm.digest bytes), ofBytes []) := by
  have value := digest_value (ofBytes bytes) algorithm
  rw [fault_of_bytes, delivered_of_bytes] at value
  have left : ((ofBytes bytes).digest algorithm).2 = ofBytes [] := by
    cases algorithm with
    | crc32 =>
        exact copy_from_leaves_nothing Digest.Crc32.update (fun _ _ => rfl) bytes
          Digest.Crc32.initial 0
    | md5 | sha256 =>
        exact copy_from_leaves_nothing
          (fun (running : Digest.Running _) piece =>
            { running with hasher := running.scheme.update running.hasher piece })
          (fun _ _ => rfl) bytes (Digest.Running.start _) 0
  exact Prod.ext value left

end ArchiveBrowser.Source

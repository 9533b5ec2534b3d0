import ArchiveBrowser.Stream.Copy

/-!
# What a copy of a source hands on

A read takes what it returns off the front of the bytes to come. An outlet that takes
everything therefore gets just those bytes, in some pieces, and the copy fails only where
the source does. Memory and digests do not tell in which pieces they got them.
-/

set_option autoImplicit false

namespace ArchiveBrowser.Source

theorem next_data {size : Nat} {source rest : Source} {bytes : Bytes}
    (read : source.next size = (.data bytes, rest)) :
    source.delivered = bytes ++ rest.delivered ∧ source.fault? = rest.fault? := by
  induction source with
  | nil => simp [next] at read
  | cons item later ih =>
      cases item with
      | data held =>
          simp only [next] at read
          split at read
          · simp at read
          · rename_i full
            split at read
            · obtain ⟨same, rfl⟩ := Prod.mk.inj read
              cases same
              simp [delivered, fault?, full]
            · -- What does not fit stays in front of the source, and is not empty.
              rename_i long
              obtain ⟨same, rfl⟩ := Prod.mk.inj read
              cases same
              have left : ¬(held.drop size).isEmpty = true := by
                rw [List.isEmpty_iff, List.drop_eq_nil_iff]
                exact long
              have parts := List.take_append_drop size held
              rw [delivered, if_neg full, fault?, if_neg full, delivered, if_neg left, fault?,
                if_neg left, ← List.append_assoc, parts]
              exact ⟨rfl, rfl⟩
      | endOfFile => simp [next] at read
      | interrupted => exact ih (by simpa only [next] using read)
      | failure fault => simp [next] at read

theorem next_end_of_file {size : Nat} {source rest : Source}
    (read : source.next size = (.endOfFile, rest)) :
    source.delivered = [] ∧ source.fault? = none := by
  induction source with
  | nil => exact ⟨rfl, rfl⟩
  | cons item later ih =>
      cases item with
      | data held =>
          simp only [next] at read
          split at read
          · rename_i empty
            simp [delivered, fault?, empty]
          · split at read <;> simp at read
      | endOfFile => exact ⟨rfl, rfl⟩
      | interrupted => exact ih (by simpa only [next] using read)
      | failure fault => simp [next] at read

theorem next_failed {size : Nat} {source rest : Source} {fault : Fault}
    (read : source.next size = (.failed fault, rest)) :
    source.delivered = [] ∧ source.fault? = some fault := by
  induction source with
  | nil => simp [next] at read
  | cons item later ih =>
      cases item with
      | data held =>
          simp only [next] at read
          split at read
          · simp at read
          · split at read <;> simp at read
      | endOfFile => simp [next] at read
      | interrupted => exact ih (by simpa only [next] using read)
      | failure met =>
          obtain ⟨same, -⟩ := Prod.mk.inj read
          cases same
          exact ⟨rfl, rfl⟩

/-- A read returns no more than was asked for, and something if anything was. -/
theorem bounds_of_next_data {size : Nat} {source rest : Source} {bytes : Bytes}
    (read : source.next size = (.data bytes, rest)) :
    bytes.length ≤ size ∧ (size ≠ 0 → bytes ≠ []) := by
  fun_induction next size source with
  | case1 | case2 | case5 | case7 => simp at read
  | case3 held later full fits =>
      obtain ⟨same, -⟩ := Prod.mk.inj read
      cases same
      exact ⟨fits, fun _ => by simpa using full⟩
  | case4 held later full long =>
      obtain ⟨same, -⟩ := Prod.mk.inj read
      cases same
      exact ⟨List.length_take_le size held, fun positive => by simpa [positive] using full⟩
  | case6 later ih => exact ih read

/-- A copy into an outlet that takes everything fails only where the source does, and leaves
the outlet with the bytes of the source in some pieces. -/
theorem copy_from_of_takes {σ : Type} [Outlet σ] (take : σ → Bytes → σ)
    (puts : ∀ (outlet : σ) bytes, Outlet.put outlet bytes = (.ok (), take outlet bytes))
    (flushes : ∀ outlet : σ, Outlet.flush outlet = (.ok (), outlet))
    (source : Source) (outlet : σ) (total : Nat) :
    (source.copyFrom outlet total).outcome =
        source.fault?.elim (.ok (total + source.delivered.length)) .error ∧
      ∃ chunks : List Bytes, chunks.flatten = source.delivered ∧
        (source.copyFrom outlet total).outlet = chunks.foldl take outlet := by
  fun_induction copyFrom source outlet total with
  | case1 source outlet total rest read flushed kept flush =>
      obtain ⟨nothing, sound⟩ := next_end_of_file read
      rw [flushes] at flush
      cases flush
      rw [nothing, sound]
      exact ⟨rfl, [], rfl, rfl⟩
  | case2 source outlet total fault rest read =>
      obtain ⟨nothing, failed⟩ := next_failed read
      rw [nothing, failed]
      exact ⟨rfl, [], rfl, rfl⟩
  | case3 source outlet total bytes rest read done taken put ih =>
      obtain ⟨front, same⟩ := next_data read
      rw [puts] at put
      cases put
      obtain ⟨outcome, chunks, pieces, handed⟩ := ih
      rw [front, same, outcome, List.length_append, Nat.add_assoc]
      exact ⟨rfl, bytes :: chunks, by rw [List.flatten_cons, pieces], handed⟩
  | case4 source outlet total bytes rest read fault refused put =>
      rw [puts] at put
      cases put

/-- Taking in pieces is taking in the whole. -/
theorem update_flatten {State : Type} (update : State → Bytes → State)
    (nothing : ∀ state, update state [] = state)
    (appended : ∀ state before after,
      update state (before ++ after) = update (update state before) after)
    (chunks : List Bytes) (state : State) :
    chunks.foldl update state = update state chunks.flatten := by
  induction chunks generalizing state with
  | nil => rw [List.flatten_nil, nothing, List.foldl_nil]
  | cons chunk chunks ih => rw [List.foldl_cons, ih, List.flatten_cons, appended]

/-- Where the pieces in which an outlet is given the bytes make no difference to it, a copy has
the result that comes of all the bytes at once. -/
theorem copy_through_value {σ α : Type} [Outlet σ] (take : σ → Bytes → σ)
    (puts : ∀ (outlet : σ) bytes, Outlet.put outlet bytes = (.ok (), take outlet bytes))
    (flushes : ∀ outlet : σ, Outlet.flush outlet = (.ok (), outlet))
    (nothing : ∀ outlet, take outlet [] = outlet)
    (appended : ∀ outlet before after,
      take outlet (before ++ after) = take (take outlet before) after)
    (source : Source) (outlet : σ) (result : σ → α) :
    (source.copyThrough outlet result).1 =
      source.fault?.elim (.ok (result (take outlet source.delivered))) .error := by
  have copied := copy_from_of_takes take puts flushes source outlet 0
  obtain ⟨outcome, chunks, pieces, handed⟩ := copied
  rw [copyThrough, copy, outcome, handed, update_flatten take nothing appended, pieces]
  cases source.fault? <;> rfl

theorem digest_chained_value {Chain : Type} (scheme : Digest.Scheme Chain) (source : Source) :
    (source.copyThrough (Digest.Running.start scheme) (·.finish.hex)).1 =
      source.fault?.elim (.ok (scheme.compute source.delivered).hex) .error := by
  let absorb := fun (running : Digest.Running Chain) (piece : Bytes) =>
    { running with hasher := running.scheme.update running.hasher piece }
  have appended : ∀ running before after,
      absorb running (before ++ after) = absorb (absorb running before) after := by
    intro running before after
    simp only [absorb, Digest.Scheme.update_append]
  exact copy_through_value absorb (fun _ _ => rfl) (fun _ => rfl) (fun _ => rfl) appended source
    (Digest.Running.start scheme) (·.finish.hex)

/-- The digest of a source is that of the bytes it delivers, if it does not fail. -/
theorem digest_value (source : Source) (algorithm : Digest.Algorithm) :
    (source.digest algorithm).1 =
      source.fault?.elim (.ok (algorithm.digest source.delivered)) .error := by
  cases algorithm with
  | crc32 =>
      exact copy_through_value Digest.Crc32.update (fun _ _ => rfl) (fun _ => rfl) (fun _ => rfl)
        Digest.Crc32.update_append source Digest.Crc32.initial (·.result.hex)
  | md5 => exact digest_chained_value Digest.Md5.scheme source
  | sha256 => exact digest_chained_value Digest.Sha256.scheme source

private theorem bytes_gathered (chunks : List Bytes) (buffer : Buffer) :
    (chunks.foldl (fun held piece => ⟨piece :: held.pieces⟩) buffer).bytes =
      buffer.bytes ++ chunks.flatten := by
  induction chunks generalizing buffer with
  | nil => simp
  | cons chunk chunks ih =>
      rw [List.foldl_cons, ih, Buffer.bytes_cons, List.flatten_cons, List.append_assoc]

theorem read_all_value (source : Source) :
    source.readAll.1 = source.fault?.elim (.ok source.delivered) .error := by
  have copied := copy_from_of_takes (fun (held : Buffer) piece => ⟨piece :: held.pieces⟩)
    (fun _ _ => rfl) (fun _ => rfl) source Buffer.empty 0
  obtain ⟨outcome, chunks, pieces, handed⟩ := copied
  rw [readAll, copy, outcome, handed, bytes_gathered, Buffer.bytes_empty, List.nil_append, pieces]
  cases source.fault? <;> rfl

theorem fault_of_bytes (bytes : Bytes) : (ofBytes bytes).fault? = none := by
  unfold ofBytes
  split
  · rfl
  · rename_i full
    rw [fault?, if_neg full]
    rfl

theorem delivered_of_bytes (bytes : Bytes) : (ofBytes bytes).delivered = bytes := by
  unfold ofBytes
  split
  · rename_i empty
    exact (List.isEmpty_iff.mp empty).symm
  · rename_i full
    rw [delivered, if_neg full, delivered, List.append_nil]

theorem read_all_of_bytes (bytes : Bytes) : (ofBytes bytes).readAll.1 = .ok bytes := by
  rw [read_all_value, fault_of_bytes, delivered_of_bytes]
  rfl

end ArchiveBrowser.Source

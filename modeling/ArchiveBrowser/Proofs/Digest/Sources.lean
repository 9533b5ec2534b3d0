import ArchiveBrowser.Proofs.Stream.Delivered
import ArchiveBrowser.Proofs.Text.Hexadecimal

/-!
# The digest of a source

A source goes on as long as its reads return data or are interrupted. What it returns until then,
put together, is what it is digested as; where it stops at a failure instead of an end, there is
no digest but that failure.

Every digest is written in as many digits as its algorithm says, the leading zeros among them.
-/

set_option autoImplicit false

namespace ArchiveBrowser

namespace Digest.Algorithm

theorem length_digest (algorithm : Algorithm) (bytes : Bytes) :
    (algorithm.digest bytes).length = algorithm.hexLength := by
  cases algorithm with
  | crc32 =>
      have word : (Crc32.initial.update bytes).result.length = 4 := Bytes.length_of_nat_big_endian 4 _
      rw [digest, Bytes.length_hex, word]
      rfl
  | md5 => rw [digest, Bytes.length_hex, Scheme.compute, Scheme.finish, Md5.length_output]; rfl
  | sha256 =>
      rw [digest, Bytes.length_hex, Scheme.compute, Scheme.finish, Sha256.length_output]
      rfl

theorem digest_mem_alphabet (algorithm : Algorithm) (bytes : Bytes) :
    ∀ c ∈ (algorithm.digest bytes).toList, c ∈ Bytes.hexAlphabet := by
  cases algorithm <;> exact Bytes.hex_mem_alphabet _

theorem digest_crc32 (bytes : Bytes) :
    crc32.digest bytes = Bytes.paddedHex 8 (Crc32.compute bytes).toNat :=
  Bytes.hex_big_endian (Crc32.compute bytes).toNat_lt

end Digest.Algorithm

namespace Source

namespace Item

def goesOn : Item → Bool
  | data bytes => !bytes.isEmpty
  | interrupted => true
  | endOfFile | failure _ => false

def bytes : Item → Bytes
  | data bytes => bytes
  | endOfFile | interrupted | failure _ => []

end Item

theorem delivered_eq (source : Source) :
    source.delivered = (source.takeWhile Item.goesOn).flatMap Item.bytes := by
  induction source with
  | nil => rfl
  | cons item later ih =>
      cases item with
      | data held =>
          by_cases empty : held.isEmpty = true
          · simp [delivered, Item.goesOn, empty]
          · simp [delivered, Item.goesOn, Item.bytes, empty, ih]
      | interrupted => exact ih
      | endOfFile | failure => rfl

theorem fault_eq_some (source : Source) (fault : Fault) :
    source.fault? = some fault ↔
      (source.dropWhile Item.goesOn).head? = some (.failure fault) := by
  induction source with
  | nil => simp [fault?]
  | cons item later ih =>
      cases item with
      | data held =>
          by_cases empty : held.isEmpty = true
          · simp [fault?, Item.goesOn, empty]
          · simp [fault?, Item.goesOn, empty, ih]
      | interrupted => exact ih
      | endOfFile => simp [fault?, Item.goesOn]
      | failure => simp [fault?, Item.goesOn]

/-- A source that does not fail before its end has the digest of the bytes it delivers until then,
in whichever pieces and after whichever interruptions it delivers them; one that fails has that
failure in place of a digest. A digest has the length of its algorithm and is in lower-case
hexadecimal, and that of CRC-32 is the checksum with zeros in front. -/
theorem digest_is_of_bytes_before_end (source : Source) (algorithm : Digest.Algorithm) :
    (∀ fault, (source.dropWhile Item.goesOn).head? = some (.failure fault) →
        (source.digest algorithm).1 = .error fault) ∧
      ((∀ fault, (source.dropWhile Item.goesOn).head? ≠ some (.failure fault)) →
        (source.digest algorithm).1 =
          .ok (algorithm.digest ((source.takeWhile Item.goesOn).flatMap Item.bytes))) ∧
      ∀ bytes, (algorithm.digest bytes).length = algorithm.hexLength ∧
        (∀ c ∈ (algorithm.digest bytes).toList, c ∈ Bytes.hexAlphabet) ∧
        (algorithm = .crc32 →
          algorithm.digest bytes = Bytes.paddedHex 8 (Digest.Crc32.compute bytes).toNat) := by
  refine ⟨?_, ?_, ?_⟩
  · intro fault stopped
    rw [digest_value, (fault_eq_some source fault).mpr stopped]
    rfl
  · intro ended
    have sound : source.fault? = none := by
      rw [Option.eq_none_iff_forall_ne_some]
      intro fault failed
      exact ended fault ((fault_eq_some source fault).mp failed)
    rw [digest_value, sound, ← delivered_eq]
    rfl
  · intro bytes
    refine ⟨algorithm.length_digest bytes, algorithm.digest_mem_alphabet bytes, ?_⟩
    rintro rfl
    exact Digest.Algorithm.digest_crc32 bytes

theorem sample_sources_digested :
    (Source.digest
        [.data [7], .interrupted, .interrupted, .data [4, 7], .endOfFile, .data [1]] .crc32).1 =
        .ok "00069f30" ∧
      Bytes.paddedHex 8 (Digest.Crc32.compute [7, 4, 7]).toNat = "00069f30" ∧
      (Source.digest [.data [7, 4], .interrupted, .failure .checksumMismatch] .md5).1 =
        .error .checksumMismatch := by
  obtain ⟨-, whole, written⟩ := digest_is_of_bytes_before_end
    [.data [7], .interrupted, .interrupted, .data [4, 7], .endOfFile, .data [1]] .crc32
  obtain ⟨failed, -⟩ := digest_is_of_bytes_before_end
    [.data [7, 4], .interrupted, .failure .checksumMismatch] .md5
  have digest : Digest.Algorithm.crc32.digest [7, 4, 7] = "00069f30" := by decide +kernel
  have ended := whole (fun fault stopped => nomatch stopped)
  exact ⟨ended.trans (congrArg _ digest), ((written [7, 4, 7]).2.2 rfl).symm.trans digest,
    failed _ rfl⟩

end Source

end ArchiveBrowser

import ArchiveBrowser.Proofs.Trie.History
import Mathlib.Data.Set.Card

/-!
# A trie is a finite map from paths to payloads

Whatever the history, a path has the payload that was last written at exactly that text,
and as many paths have one as payloads are counted. Paths that differ only in their slashes
are different keys.
-/

set_option autoImplicit false

namespace ArchiveBrowser.Trie

variable {α : Type}

private theorem payload_is_some_iff (history : List (Operation α)) (path : String) :
    ((run history).payload? path).isSome = true ↔
      path ∈ (run history).keys.map Path.ofSegments := by
  have members := fun key => mem_keys_iff (distinct_run history) key
  constructor
  · intro carries
    cases cut : Path.segments? path with
    | none =>
        rw [payload_of_relative _ cut] at carries
        cases carries
    | some segments =>
        rw [payload_eq _ cut] at carries
        exact List.mem_map.mpr
          ⟨segments, (members segments).mpr carries, Path.of_segments_segments cut⟩
  · intro listed
    obtain ⟨key, member, rfl⟩ := List.mem_map.mp listed
    have carries := (members key).mp member
    have valid := payloads_at_segments_run history key carries
    rw [payload_eq _ (Path.segments_of_segments valid)]
    exact carries

private theorem nodup_payload_paths (history : List (Operation α)) :
    ((run history).keys.map Path.ofSegments).Nodup := by
  have distinct := distinct_run history
  have valid : ∀ key ∈ (run history).keys, Path.AreSegments key := by
    intro key member
    exact payloads_at_segments_run history key ((mem_keys_iff distinct key).mp member)
  -- Only lists that some path is cut into have a path of their own: `[""]` is put together to
  -- the path of the root as well.
  refine (nodup_keys distinct).map_on ?_
  intro key member other otherMember same
  exact Path.of_segments_injective (valid key member) (valid other otherMember) same

/-- The number of paths with a payload is the number of payloads. -/
theorem encard_payload_paths (history : List (Operation α)) :
    {path | ((run history).payload? path).isSome = true}.encard =
      (run history).payloadCount := by
  let paths := (run history).keys.map Path.ofSegments
  have same : {path | ((run history).payload? path).isSome = true} = ↑paths.toFinset := by
    ext path
    rw [Set.mem_ofPred_eq, payload_is_some_iff, Finset.mem_coe, List.mem_toFinset]
  rw [same, Set.encard_coe_eq_coe_finsetCard,
    List.toFinset_card_of_nodup (nodup_payload_paths history), List.length_map, length_keys]

theorem payload_of_other_path (trie : Trie α) (operation : Operation α) {path : String}
    (different : path ≠ operation.path) :
    (trie.perform operation).2.payload? path = trie.payload? path := by
  cases cut : Path.segments? operation.path with
  | none => rw [perform_of_relative trie cut]
  | some segments =>
      rw [payload_after trie cut, if_neg]
      intro written
      exact different written.1.symm

/-- After any history the trie is the map of the latest writes. Writing tells what was
there, attaching tells whether the node was there, a path without a slash at its start is
refused and changes nothing, and no operation touches another path. -/
theorem history_refines_finite_map (history : List (Operation α)) :
    (∀ path, (run history).payload? path = latest? path (transcript empty history)) ∧
      (∀ path value, ((run history).perform (.put path value)).1 =
        if Path.isAbsolute path then .replaced ((run history).payload? path)
        else .refused (.invalidPath path)) ∧
      (∀ path value, ((run history).perform (.attach path value)).1 =
        .attached ((run history).find? path).isSome) ∧
      (∀ operation, Path.isAbsolute operation.path = false →
        (run history).perform operation = (operation.refusal, run history)) ∧
      (∀ operation path, path ≠ operation.path →
        ((run history).perform operation).2.payload? path = (run history).payload? path) ∧
      {path | ((run history).payload? path).isSome = true}.encard =
        (run history).payloadCount := by
  refine ⟨payload_run history, answer_put (run history), answer_attach (run history), ?_, ?_,
    encard_payload_paths history⟩
  · intro operation relative
    exact perform_of_relative (run history) (Path.segments_eq_none.mpr relative)
  · intro operation path different
    exact payload_of_other_path (run history) operation different

def sampleHistory : List (Operation Nat) :=
  [.put "/a/b" 1, .insert "/a//b", .put "/a" 2, .attach "/a/b" 3]

theorem sample_history_refines :
    Path.isAbsolute (Operation.put "a" 4).path = false ∧ "/a/" ≠ (Operation.put "/a" 4).path ∧
      (run sampleHistory).perform (.put "a" 4) =
        (.refused (.invalidPath "a"), run sampleHistory) ∧
      ((run sampleHistory).perform (.put "/a" 4)).2.payload? "/a/" =
        (run sampleHistory).payload? "/a/" := by
  have refines := history_refines_finite_map sampleHistory
  have relative : Path.isAbsolute (Operation.put "a" 4).path = false := by decide
  have different : "/a/" ≠ (Operation.put "/a" 4).path := by decide
  exact ⟨relative, different, refines.2.2.2.1 _ relative, refines.2.2.2.2.1 _ _ different⟩

end ArchiveBrowser.Trie

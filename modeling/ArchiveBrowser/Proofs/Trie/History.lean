import ArchiveBrowser.Proofs.FirstOccurrences
import ArchiveBrowser.Proofs.Path.Segments
import ArchiveBrowser.Proofs.Trie.Keys

/-!
# Histories of a trie

A history is a sequence of operations on an empty trie. `after_perform` says once what a
single operation does; what a whole history leaves behind is derived from it by induction
on the history, one operation at a time from its end.
-/

set_option autoImplicit false

namespace ArchiveBrowser.Trie

variable {α : Type}

inductive Operation (α : Type) where
  | insert (path : String)
  | attach (path : String) (value : α)
  | put (path : String) (value : α)

namespace Operation

def path : Operation α → String
  | insert path | attach path _ | put path _ => path

/-- The segments along which an operation makes nodes where they are missing. -/
def inserted? : Operation α → Option (List String)
  | insert path | put path _ => Path.segments? path
  | attach _ _ => none

def change : Operation α → Option α → Option α
  | insert _ => id
  | attach _ value | put _ value => fun _ => some value

end Operation

inductive Answer (α : Type) where
  | inserted
  | attached (done : Bool)
  | replaced (previous : Option α)
  | refused (error : Error)

def perform (trie : Trie α) : Operation α → Answer α × Trie α
  | .insert path =>
    match trie.insert path with
    | .error error => (.refused error, trie)
    | .ok made => (.inserted, made)
  | .attach path value => (.attached (trie.attach path value).1, (trie.attach path value).2)
  | .put path value =>
    match trie.put path value with
    | .error error => (.refused error, trie)
    | .ok (previous, after) => (.replaced previous, after)

/-- What an operation answers whose path does not start with a slash. -/
def Operation.refusal : Operation α → Answer α
  | insert path | put path _ => .refused (.invalidPath path)
  | attach _ _ => .attached false

def run (history : List (Operation α)) : Trie α :=
  history.foldl (fun trie operation => (trie.perform operation).2) empty

def transcript (trie : Trie α) : (history : List (Operation α)) → List (Operation α × Answer α)
  | [] => []
  | operation :: rest =>
    (operation, (trie.perform operation).1) :: transcript (trie.perform operation).2 rest

/-- The value that one step of a transcript writes at a path. -/
def written? (path : String) : Operation α × Answer α → Option α
  | (.put target value, _) => if target = path && Path.isAbsolute target then some value else none
  | (.attach target value, .attached true) => if target = path then some value else none
  | _ => none

def latest? (path : String) (steps : List (Operation α × Answer α)) : Option α :=
  steps.reverse.findSome? (written? path)

theorem run_append (history : List (Operation α)) (operation : Operation α) :
    run (history ++ [operation]) = ((run history).perform operation).2 := by
  simp [run]

theorem transcript_append (trie : Trie α) (history : List (Operation α))
    (operation : Operation α) :
    transcript trie (history ++ [operation]) =
      transcript trie history ++
        [(operation, ((history.foldl (fun trie operation => (trie.perform operation).2)
          trie).perform operation).1)] := by
  induction history generalizing trie with
  | nil => rfl
  | cons first rest ih => simp [transcript, ih]

theorem latest_append (path : String) (steps : List (Operation α × Answer α))
    (step : Operation α × Answer α) :
    latest? path (steps ++ [step]) = (written? path step).or (latest? path steps) := by
  simp only [latest?, List.reverse_append, List.reverse_singleton, List.singleton_append,
    List.findSome?_cons]
  cases written? path step <;> rfl

theorem perform_of_relative (trie : Trie α) {operation : Operation α}
    (relative : Path.segments? operation.path = none) :
    trie.perform operation = (operation.refusal, trie) := by
  cases operation <;> simp only [Operation.path] at relative <;>
    simp [perform, insert, attach, put, relative, Operation.refusal]

theorem node_of_alter (change : Option α → Option α) (trie : Trie α) (segments : List String) :
    ((trie.alter change segments).node? segments).isSome = true :=
  (node_is_some_alter change trie segments segments).mpr (.inl (List.prefix_refl segments))

/-- Everything that an operation does to a trie: it alters the node of its path, unless it
only attaches and finds none. -/
theorem after_perform (trie : Trie α) {operation : Operation α} {segments : List String}
    (cut : Path.segments? operation.path = some segments) :
    (trie.perform operation).2 =
      if operation.inserted?.isSome ∨ (trie.node? segments).isSome then
        trie.alter operation.change segments
      else trie := by
  cases operation with
  | insert path =>
      simp only [Operation.path] at cut
      simp [perform, insert, cut, Operation.inserted?, Operation.change]
  | attach path value =>
      simp only [Operation.path] at cut
      by_cases there : (trie.node? segments).isSome
      · simp [perform, attach, cut, there, Operation.inserted?, Operation.change]
      · simp [perform, attach, cut, there, Operation.inserted?]
  | put path value =>
      simp only [Operation.path] at cut
      have there := node_of_alter id trie segments
      simp [perform, put, insert, attach, cut, there, alter_alter, Operation.inserted?,
        Operation.change]

theorem payload_eq (trie : Trie α) {path : String} {segments : List String}
    (cut : Path.segments? path = some segments) :
    trie.payload? path = (trie.node? segments).bind Node.payload := by
  rw [payload?, find?, cut, Option.bind_some]

theorem payload_of_relative (trie : Trie α) {path : String}
    (relative : Path.segments? path = none) : trie.payload? path = none := by
  rw [payload?, find?, relative]
  rfl

theorem payload_after (trie : Trie α) {operation : Operation α} {segments : List String}
    (cut : Path.segments? operation.path = some segments) (path : String) :
    (trie.perform operation).2.payload? path =
      if operation.path = path ∧
          (operation.inserted?.isSome = true ∨ (trie.node? segments).isSome = true) then
        operation.change (trie.payload? path)
      else trie.payload? path := by
  cases place : Path.segments? path with
  | none =>
      have different : operation.path ≠ path := by
        intro same
        rw [same, place] at cut
        cases cut
      simp only [payload_of_relative _ place, different, false_and, if_false]
  | some others =>
      have samePath : operation.path = path ↔ others = segments := by
        constructor
        · intro same
          rw [same, place] at cut
          exact Option.some.inj cut
        · intro same
          subst same
          exact Path.segments_injective cut place
      rw [after_perform trie cut]
      by_cases effective :
          operation.inserted?.isSome = true ∨ (trie.node? segments).isSome = true
      · rw [if_pos effective, payload_eq _ place, payload_eq _ place, payload_alter]
        simp only [samePath, effective, and_true]
      · simp only [effective, and_false, if_false]

theorem answer_attach (trie : Trie α) (path : String) (value : α) :
    (trie.perform (.attach path value)).1 = .attached (trie.find? path).isSome := by
  cases cut : Path.segments? path with
  | none => simp [perform, attach, find?, cut]
  | some segments =>
      by_cases there : (trie.node? segments).isSome <;> simp [perform, attach, find?, cut, there]

theorem answer_put (trie : Trie α) (path : String) (value : α) :
    (trie.perform (.put path value)).1 =
      if Path.isAbsolute path then .replaced (trie.payload? path)
      else .refused (.invalidPath path) := by
  rw [← Path.segments_is_some]
  cases cut : Path.segments? path with
  | none => simp [perform, put, insert, cut]
  | some segments =>
      have kept : (trie.alter id segments).payload? path = trie.payload? path := by
        rw [payload_eq _ cut, payload_eq _ cut, payload_alter, if_pos rfl, id]
      simp [perform, put, insert, cut, kept]

theorem payload_perform (trie : Trie α) (operation : Operation α) (path : String) :
    (trie.perform operation).2.payload? path =
      (written? path (operation, (trie.perform operation).1)).or (trie.payload? path) := by
  cases cut : Path.segments? operation.path with
  | none =>
      have relative := Path.segments_eq_none.mp cut
      rw [perform_of_relative trie cut]
      cases operation with
      | insert target => rfl
      | attach target value => rfl
      | put target value =>
          simp only [Operation.path] at relative
          simp [written?, relative]
  | some segments =>
      rw [payload_after trie cut]
      cases operation with
      | insert target => simp [written?, Operation.change]
      | attach target value =>
          simp only [Operation.path] at cut
          rw [answer_attach, find?, cut, Option.bind_some]
          by_cases there : (trie.node? segments).isSome <;>
            by_cases same : target = path <;>
              simp [written?, Operation.change, Operation.path, Operation.inserted?, there, same]
      | put target value =>
          simp only [Operation.path] at cut
          have absolute := Path.absolute_of_segments cut
          by_cases same : target = path
          · subst same
            simp [written?, Operation.change, Operation.path, Operation.inserted?, cut, absolute]
          · simp [written?, Operation.path, same]

theorem segments_of_inserted {operation : Operation α} {whole : List String}
    (inserted : operation.inserted? = some whole) :
    Path.segments? operation.path = some whole := by
  cases operation with
  | insert path => exact inserted
  | attach path value => cases inserted
  | put path value => exact inserted

theorem after_of_inserted (trie : Trie α) {operation : Operation α} {whole : List String}
    (inserted : operation.inserted? = some whole) :
    (trie.perform operation).2 = trie.alter operation.change whole := by
  rw [after_perform trie (segments_of_inserted inserted), inserted]
  simp

theorem after_of_not_inserted (trie : Trie α) {operation : Operation α}
    (notInserted : operation.inserted? = none) :
    (trie.perform operation).2 = trie ∨
      ∃ segments, Path.segments? operation.path = some segments ∧
        (trie.node? segments).isSome = true ∧
        (trie.perform operation).2 = trie.alter operation.change segments := by
  cases cut : Path.segments? operation.path with
  | none => exact .inl (by rw [perform_of_relative trie cut])
  | some segments =>
      rw [after_perform trie cut, notInserted]
      by_cases there : (trie.node? segments).isSome = true
      · exact .inr ⟨segments, rfl, there, by simp [there]⟩
      · exact .inl (by simp [there])

theorem node_is_some_perform (trie : Trie α) (operation : Operation α) (place : List String) :
    ((trie.perform operation).2.node? place).isSome = true ↔
      (∃ whole, operation.inserted? = some whole ∧ place <+: whole) ∨
        (trie.node? place).isSome = true := by
  cases inserted : operation.inserted? with
  | some whole =>
      rw [after_of_inserted trie inserted, node_is_some_alter]
      simp
  | none =>
      rcases after_of_not_inserted trie inserted with same | ⟨segments, -, there, altered⟩
      · simp [same]
      · -- Which nodes are there does not depend on the change, and `id` changes nothing here.
        have known := node_is_some_alter id trie segments place
        rw [alter_id_of_node trie there] at known
        rw [altered, node_is_some_alter, ← known]
        simp

theorem child_names_perform (trie : Trie α) (operation : Operation α) (place : List String) :
    (trie.perform operation).2.childNames place =
      withName (trie.childNames place) (operation.inserted?.bind (nextSegment? · place)) := by
  cases inserted : operation.inserted? with
  | some whole => rw [after_of_inserted trie inserted, child_names_alter, Option.bind_some]
  | none =>
      rcases after_of_not_inserted trie inserted with same | ⟨segments, -, there, altered⟩
      · rw [same, Option.bind_none, withName]
      · have known := child_names_alter id trie segments place
        rw [alter_id_of_node trie there] at known
        rw [altered, child_names_alter, ← known, Option.bind_none, withName]

/-! ## Whole histories -/

/-- What holds of the empty trie and is kept by every alteration at the segments of a path
holds after any history. -/
theorem run_invariant {motive : Trie α → Prop} (start : motive empty)
    (kept : ∀ (trie : Trie α) (change : Option α → Option α) (segments : List String),
      Path.AreSegments segments → motive trie → motive (trie.alter change segments))
    (history : List (Operation α)) : motive (run history) := by
  -- From the end: the last operation meets the trie that the rest leaves.
  induction history using List.reverseRecOn with
  | nil => exact start
  | append_singleton history operation ih =>
      rw [run_append]
      cases cut : Path.segments? operation.path with
      | none =>
          rw [perform_of_relative _ cut]
          exact ih
      | some segments =>
          rw [after_perform _ cut]
          split
          · exact kept _ operation.change segments (Path.are_segments cut) ih
          · exact ih

theorem payload_run (history : List (Operation α)) (path : String) :
    (run history).payload? path = latest? path (transcript empty history) := by
  induction history using List.reverseRecOn with
  | nil =>
      cases cut : Path.segments? path with
      | none => exact payload_of_relative _ cut
      | some segments =>
          rw [payload_eq _ cut]
          cases segments <;> rfl
  | append_singleton history operation ih =>
      rw [run_append, transcript_append, latest_append, payload_perform, ih]
      rfl

theorem node_is_some_run (history : List (Operation α)) (place : List String) :
    ((run history).node? place).isSome = true ↔
      place = [] ∨ ∃ whole ∈ history.filterMap Operation.inserted?, place <+: whole := by
  induction history using List.reverseRecOn with
  | nil => cases place <;> simp [run, empty, node?, Forest.node?]
  | append_singleton history operation ih =>
      rw [run_append, node_is_some_perform, ih, List.filterMap_append]
      cases inserted : operation.inserted? with
      | none => simp [inserted]
      | some whole =>
          simp only [Option.some.injEq, exists_eq_left', List.filterMap_cons, inserted,
            List.filterMap_nil, List.mem_append, List.mem_singleton, or_and_right, exists_or,
            exists_eq_left]
          rw [or_comm, or_assoc]

/-- The names below a place are the segments that follow it in what was inserted. -/
theorem child_names_run (history : List (Operation α)) (place : List String) :
    (run history).childNames place =
      (history.filterMap fun operation =>
        operation.inserted?.bind (nextSegment? · place)).eraseDups := by
  induction history using List.reverseRecOn with
  | nil => cases place <;> simp [run, empty, childNames, node?, root, Forest.node?, Forest.names]
  | append_singleton history operation ih =>
      rw [run_append, child_names_perform, List.filterMap_append, ih]
      cases follows : operation.inserted?.bind (nextSegment? · place) with
      | none => simp [follows, withName]
      | some segment =>
          have single : [operation].filterMap (fun operation =>
              operation.inserted?.bind (nextSegment? · place)) = [segment] := by
            simp [follows]
          rw [single, erase_dups_snoc]
          rfl

theorem distinct_run (history : List (Operation α)) : (run history).children.Distinct := by
  apply run_invariant (motive := fun trie => trie.children.Distinct)
  · trivial
  · intro trie change segments _ distinct
    exact distinct_alter change distinct segments

theorem inserted_are_segments {operation : Operation α} {whole : List String}
    (inserted : operation.inserted? = some whole) : Path.AreSegments whole :=
  Path.are_segments (segments_of_inserted inserted)

/-- Only places that some path leads to carry a payload. -/
def PayloadsAtSegments (trie : Trie α) : Prop :=
  ∀ key, ((trie.node? key).bind Node.payload).isSome = true → Path.AreSegments key

theorem payloads_at_segments_run (history : List (Operation α)) :
    (run history).PayloadsAtSegments := by
  apply run_invariant
  · intro key carries
    cases key <;> simp [empty, node?, root, Forest.node?] at carries
  · intro trie change segments valid known key carries
    rw [payload_alter] at carries
    by_cases here : key = segments
    · rwa [here]
    · rw [if_neg here] at carries
      exact known key carries

end ArchiveBrowser.Trie

import ArchiveBrowser.Digest.Algorithm
import ArchiveBrowser.Proofs.Digest.BitSerial
import ArchiveBrowser.Stream.Outlet
import Mathlib.Data.List.Induction
import Mathlib.Logic.Function.Basic

/-!
# Running checksums

Any number of checksums are computed at a time, each under a name, and any of them may be set
back, fed, or replaced by a clone of another. `fed` looks back from the end of a history for
the bytes that a checksum has been fed, and goes on with the original where it meets a clone.
One step keeps every register at what those bytes make of a new one, so that whatever has
happened a checksum is that of the bytes, taken bit by bit.
-/

set_option autoImplicit false

namespace ArchiveBrowser.Digest.Crc32

inductive Step (Name : Type) where
  | create (name : Name)
  | reset (name : Name)
  | update (name : Name) (bytes : Bytes)
  | write (name : Name) (bytes : Bytes)
  | flush (name : Name)
  /-- What goes by the name `copy` is from now on a clone of the original. -/
  | clone (original copy : Name)
  | value (name : Name)
  /-- Asks for the final value of a clone, which is then gone. -/
  | finalizeClone (name : Name)

inductive Answer where
  | done
  | written (outcome : Except Fault Nat)
  | flushed (outcome : Except Fault Unit)
  | checksum (value : UInt32)

variable {Name : Type} [DecidableEq Name]

def Step.reads : Step Name → Bool
  | value _ | finalizeClone _ => true
  | _ => false

def perform (running : Name → Crc32) : Step Name → Answer × (Name → Crc32)
  | .create name => (.done, Function.update running name initial)
  | .reset name => (.done, Function.update running name (running name).reset)
  | .update name bytes => (.done, Function.update running name ((running name).update bytes))
  | .write name bytes =>
    let (outcome, after) := (running name).write bytes
    (.written outcome, Function.update running name after)
  | .flush name =>
    let (outcome, after) := Outlet.flush (running name)
    (.flushed outcome, Function.update running name after)
  | .clone original copy => (.done, Function.update running copy (running original))
  | .value name | .finalizeClone name => (.checksum (running name).value, running)

/-- What a history leaves behind, if every name stands for a new checksum at its beginning. -/
def run (history : List (Step Name)) : Name → Crc32 :=
  history.foldl (fun running step => (perform running step).2) fun _ => initial

/-- The bytes fed since a checksum was last new or set back, where the latest step is first. -/
def fedBefore : (steps : List (Step Name)) → (name : Name) → Bytes
  | [], _ => []
  | .create made :: earlier, name | .reset made :: earlier, name =>
    if made = name then [] else fedBefore earlier name
  | .update taker bytes :: earlier, name | .write taker bytes :: earlier, name =>
    if taker = name then fedBefore earlier name ++ bytes else fedBefore earlier name
  | .clone original copy :: earlier, name =>
    fedBefore earlier (if copy = name then original else name)
  | .flush _ :: earlier, name | .value _ :: earlier, name | .finalizeClone _ :: earlier, name =>
    fedBefore earlier name

def fed (history : List (Step Name)) (name : Name) : Bytes :=
  fedBefore history.reverse name

/-- What a step is to answer after a history. -/
def answerAfter (history : List (Step Name)) : Step Name → Answer
  | .create _ | .reset _ | .update _ _ | .clone _ _ => .done
  | .write _ bytes => .written (.ok bytes.length)
  | .flush _ => .flushed (.ok ())
  | .value name | .finalizeClone name => .checksum (.ofBitVec (bitSerial (fed history name)))

theorem run_append (history : List (Step Name)) (step : Step Name) :
    run (history ++ [step]) = (perform (run history) step).2 := by
  rw [run, List.foldl_append]
  rfl

theorem fed_append (history : List (Step Name)) (step : Step Name) (name : Name) :
    fed (history ++ [step]) name = fedBefore (step :: history.reverse) name := by
  rw [fed, List.reverse_append]
  rfl

/-- A checksum is a new one that has been fed all these bytes at once. -/
theorem run_eq (history : List (Step Name)) (name : Name) :
    run history name = initial.update (fed history name) := by
  induction history using List.reverseRecOn generalizing name with
  | nil => rfl
  | append_singleton history step ih =>
      have fedNow : ∀ (taker : Name) bytes,
          Function.update (run history) taker ((run history taker).update bytes) name =
            initial.update (if taker = name then fed history name ++ bytes
              else fed history name) := by
        intro taker bytes
        by_cases same : taker = name
        · subst same
          rw [Function.update_self, if_pos rfl, ih, update_append]
        · rw [Function.update_of_ne (Ne.symm same), if_neg same, ih]
      have startedNow : ∀ made : Name, Function.update (run history) made initial name =
          initial.update (if made = name then [] else fed history name) := by
        intro made
        by_cases same : made = name
        · rw [same, Function.update_self, if_pos rfl, update_nil]
        · rw [Function.update_of_ne (Ne.symm same), if_neg same, ih]
      rw [run_append, fed_append]
      cases step with
      | create made | reset made => exact startedNow made
      | update taker bytes | write taker bytes => exact fedNow taker bytes
      | flush flushed =>
          have unchanged : Function.update (run history) flushed (run history flushed) =
              run history := Function.update_eq_self flushed (run history)
          exact (congrFun unchanged name).trans (ih name)
      | clone original copy =>
          change Function.update (run history) copy (run history original) name =
            initial.update (fed history (if copy = name then original else name))
          by_cases same : copy = name
          · rw [same, Function.update_self, if_pos rfl, ih]
          · rw [Function.update_of_ne (Ne.symm same), if_neg same, ih]
      | value asked | finalizeClone asked => exact ih name

theorem value_run (history : List (Step Name)) (name : Name) :
    (run history name).value.toBitVec = bitSerial (fed history name) := by
  rw [run_eq, value_update_initial]

theorem answer_run (history : List (Step Name)) (step : Step Name) :
    (perform (run history) step).1 = answerAfter history step := by
  cases step with
  | create name | reset name | update name bytes | write name bytes | flush name
  | clone original copy => rfl
  | value name | finalizeClone name =>
      change Answer.checksum (run history name).value = .checksum _
      rw [← value_run, UInt32.ofBitVec_toBitVec]

/-- Reading a checksum leaves everything as it is. -/
theorem run_without_reading (history : List (Step Name)) :
    run (history.filter (!·.reads)) = run history := by
  induction history using List.reverseRecOn with
  | nil => rfl
  | append_singleton history step ih =>
      rw [List.filter_append, run_append]
      cases step with
      | value name | finalizeClone name => simpa [Step.reads, perform] using ih
      | create | reset | update | write | flush | clone =>
          rw [List.filter_cons_of_pos rfl, List.filter_nil, run_append, ih]

/-- Through any history a checksum is the one computed bit by bit from the bytes that it has
been fed, written bytes are all taken, and asking for a checksum disturbs none. So is the
checksum of bytes that are there at once, and its digits are what is shown of it. -/
theorem checksums_are_bit_serial (history : List (Step Name)) :
    (∀ name, (run history name).value.toBitVec = bitSerial (fed history name)) ∧
      (∀ step, (perform (run history) step).1 = answerAfter history step) ∧
      run (history.filter (!·.reads)) = run history ∧
      ∀ bytes, (compute bytes).toBitVec = bitSerial bytes ∧
        Algorithm.crc32.digest bytes =
          (Bytes.ofNatBigEndian 4 (bitSerial bytes).toNat).hex := by
  refine ⟨value_run history, answer_run history, run_without_reading history, ?_⟩
  intro bytes
  have value := value_update_initial bytes
  refine ⟨value, ?_⟩
  rw [← value]
  rfl

/-- The check value: the checksum of the digits from one to nine. -/
example : bitSerial (Bytes.ofText "123456789") = 0xcbf43926#32 := by cbv

end ArchiveBrowser.Digest.Crc32

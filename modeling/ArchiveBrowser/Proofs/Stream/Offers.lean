import ArchiveBrowser.Proofs.Stream.Written
import Mathlib

/-!
# What is offered to a sink

`offerEach` makes given offers to a sink and collects the answers, whatever the offers are. Writing
bytes makes the offers that leave out just what has been taken, until nothing is left or an answer
is a refusal, and the outcome is read off the last answer.
-/

set_option autoImplicit false

namespace ArchiveBrowser.Sink

/-- What a sink answers to offers made one after the other, and what becomes of it. -/
def offerEach (sink : Sink) : List Bytes → List Written × Sink
  | [] => ([], sink)
  | offered :: later =>
    let (answer, after) := sink.write offered
    let (answers, last) := after.offerEach later
    (answer :: answers, last)

def taken : (answers : List Written) → Nat
  | [] => 0
  | answer :: answers => answer.count + taken answers

/-- With what fault an answer ends the writing, if it does. -/
def Written.fault? (stalled : Fault) : Written → Option Fault
  | accepted 0 => some stalled
  | accepted (_ + 1) | interrupted => none
  | failed fault => some fault

theorem offer_each_cons {sink after last : Sink} {offered : Bytes} {later : List Bytes}
    {answer : Written} {answers : List Written} (wrote : sink.write offered = (answer, after))
    (offers : after.offerEach later = (answers, last)) :
    sink.offerEach (offered :: later) = (answer :: answers, last) := by
  rw [offerEach, wrote]
  simp only [offers]

/-- The record of offers and answers, latest first. -/
def recorded (offers : List Bytes) (answers : List Written) : List Call :=
  (List.zipWith (fun offered answer => .write offered answer.count) offers answers).reverse

theorem calls_offer_each (sink : Sink) (offers : List Bytes) :
    (sink.offerEach offers).2.calls =
      recorded offers (sink.offerEach offers).1 ++ sink.calls := by
  induction offers generalizing sink with
  | nil => rfl
  | cons offered later ih =>
      cases wrote : sink.write offered with
      | mk answer after =>
          have record := eq_record_of_write wrote
          rw [offer_each_cons wrote rfl, ih, record, recorded, recorded, List.zipWith_cons_cons,
            List.reverse_cons, List.append_assoc]
          rfl

/-- A sink takes no more than it is offered. -/
theorem count_le_of_write {sink after : Sink} {offered : Bytes} {answer : Written}
    (wrote : sink.write offered = (answer, after)) : answer.count ≤ offered.length := by
  have granted : ∀ most, (sink.grant offered most).1.count ≤ offered.length := by
    intro most
    unfold grant
    split
    · simp only [Written.count]
      omega
    · dsimp only
      split
      · exact Nat.zero_le _
      · simp only [Written.count]
        omega
  have outcome : (sink.write offered).1 = answer := by rw [wrote]
  rw [← outcome]
  unfold write
  split
  · exact granted _
  · exact granted _
  · exact Nat.zero_le _
  · exact Nat.zero_le _

/-- The offers that bytes are written in, the answers to them, and what comes out in the end. -/
structure WritesIn (sink : Sink) (stalled : Fault) (bytes : Bytes) (offers : List Bytes)
    (answers : List Written) (written : Except Fault Unit × Sink) : Prop where
  answered : sink.offerEach offers = (answers, written.2)
  offers_rest : ∀ place offered, offers[place]? = some offered →
    offered = bytes.drop (taken (answers.take place)) ∧ offered ≠ []
  goes_on : ∀ answer ∈ answers.dropLast, answer.fault? stalled = none
  took : sink.Took (bytes.take (taken answers)) written.2
  succeeds : written.1 = .ok () ↔ taken answers = bytes.length
  fails : ∀ fault, written.1 = .error fault ↔
    answers.getLast?.bind (Written.fault? stalled) = some fault ∧ taken answers < bytes.length

theorem WritesIn.nothing (sink : Sink) (stalled : Fault) :
    sink.WritesIn stalled [] [] [] (.ok (), sink) where
  answered := rfl
  offers_rest := by simp
  goes_on := by simp
  took := Took.refl sink
  succeeds := by simp [taken]
  fails := by simp

theorem WritesIn.refused {sink after : Sink} {stalled fault : Fault} {bytes : Bytes}
    {answer : Written} (nonempty : bytes ≠ []) (wrote : sink.write bytes = (answer, after))
    (refusal : answer.fault? stalled = some fault) :
    sink.WritesIn stalled bytes [bytes] [answer] (.error fault, after) := by
  have nothing : answer.count = 0 := by
    cases answer with
    | accepted count =>
        cases count with
        | zero => rfl
        | succ count => cases refusal
    | interrupted => rfl
    | failed met => rfl
  have positive := List.length_pos_iff.mpr nonempty
  have none : taken [answer] = 0 := by
    rw [taken, nothing]
    rfl
  constructor
  · exact offer_each_cons wrote rfl
  · intro place offered found
    cases place with
    | zero =>
        cases found
        exact ⟨rfl, nonempty⟩
    | succ place => cases found
  · simp
  · rw [none]
    have took := Took.of_write wrote
    rwa [nothing] at took
  · simp only [none, reduceCtorEq, false_iff]
    omega
  · intro other
    simp [none, positive, refusal]

theorem WritesIn.after_answer {sink between : Sink} {stalled : Fault} {bytes : Bytes}
    {answer : Written} {offers : List Bytes} {answers : List Written}
    {written : Except Fault Unit × Sink} (nonempty : bytes ≠ [])
    (wrote : sink.write bytes = (answer, between)) (going : answer.fault? stalled = none)
    (rest : between.WritesIn stalled (bytes.drop answer.count) offers answers written) :
    sink.WritesIn stalled bytes (bytes :: offers) (answer :: answers) written := by
  have within := count_le_of_write wrote
  constructor
  · exact offer_each_cons wrote rest.answered
  · intro place offered found
    cases place with
    | zero =>
        cases found
        exact ⟨rfl, nonempty⟩
    | succ place =>
        have later := rest.offers_rest place offered found
        rwa [List.drop_drop, ← taken, ← List.take_succ_cons] at later
  · intro other member
    cases answers with
    | nil => cases member
    | cons next others =>
        rw [List.dropLast_cons_cons] at member
        cases member with
        | head => exact going
        | tail _ behind => exact rest.goes_on other behind
  · have took := (Took.of_write wrote).trans rest.took
    rwa [← List.take_add, ← taken] at took
  · rw [rest.succeeds, taken, List.length_drop]
    omega
  · intro fault
    rw [rest.fails, taken, List.length_drop]
    have last : answers.getLast?.bind (Written.fault? stalled) =
        (answer :: answers).getLast?.bind (Written.fault? stalled) := by
      cases answers with
      | nil => simp [going]
      | cons next others => rw [List.getLast?_cons_cons]
    rw [last]
    apply and_congr_right
    intro _
    omega

theorem WritesIn.no_offers {sink : Sink} {stalled : Fault} {offers : List Bytes}
    {answers : List Written} {written : Except Fault Unit × Sink}
    (nothing : sink.WritesIn stalled [] offers answers written) : offers = [] := by
  cases offers with
  | nil => rfl
  | cons offered later =>
      obtain ⟨rest, nonempty⟩ := nothing.offers_rest 0 offered rfl
      rw [List.drop_nil] at rest
      exact absurd rest nonempty

theorem exists_writes_in (stalled : Fault) (sink : Sink) (bytes : Bytes) :
    ∃ offers answers, sink.WritesIn stalled bytes offers answers (sink.writeAll stalled bytes) := by
  fun_induction writeAll stalled sink bytes with
  | case1 sink => exact ⟨[], [], WritesIn.nothing sink stalled⟩
  | case2 sink bytes full after step => exact ⟨[bytes], _, WritesIn.refused full step rfl⟩
  | case3 sink bytes full count between step ih =>
      obtain ⟨offers, answers, rest⟩ := ih
      exact ⟨bytes :: offers, _, rest.after_answer full step rfl⟩
  | case4 sink bytes full between step ih =>
      obtain ⟨offers, answers, rest⟩ := ih
      exact ⟨bytes :: offers, _, rest.after_answer full step rfl⟩
  | case5 sink bytes full fault after step => exact ⟨[bytes], _, WritesIn.refused full step rfl⟩

/-- Bytes are written in offers that each consist of what has not been taken yet, none of them
empty. The writing succeeds just where all bytes have been taken. Else a proper beginning of them
has, and the last answer is the only refusal: nothing was taken of the offer, or the sink failed.
Of no bytes no offer is made. -/
theorem writing_offers_what_is_left (stalled : Fault) (sink : Sink) (bytes : Bytes) :
    ∃ offers answers,
      sink.WritesIn stalled bytes offers answers (sink.writeAll stalled bytes) ∧
        (sink.writeAll stalled bytes).2.calls = recorded offers answers ++ sink.calls ∧
        (bytes = [] → offers = []) := by
  obtain ⟨offers, answers, written⟩ := exists_writes_in stalled sink bytes
  refine ⟨offers, answers, written, ?_, ?_⟩
  · have calls := calls_offer_each sink offers
    rwa [written.answered] at calls
  · intro empty
    rw [empty] at written
    exact written.no_offers

namespace SampleOffers

/-- Takes two bytes, is interrupted, and then takes nothing. -/
def balky : Sink := { unlimited with script := [.accept 2, .interrupted, .accept 0] }

end SampleOffers

open SampleOffers in
theorem sample_writing_breaks_off :
    (∃ offers answers, balky.WritesIn .sinkStalled [1, 2, 3] offers answers
        (.error .sinkStalled, (balky.writeAll .sinkStalled [1, 2, 3]).2) ∧
      recorded offers answers = [.write [3] 0, .write [3] 0, .write [1, 2, 3] 2] ∧
      answers.getLast?.bind (Written.fault? .sinkStalled) = some .sinkStalled ∧
      taken answers < 3) ∧
    ∃ answers, balky.WritesIn .sinkStalled [] [] answers (balky.writeAll .sinkStalled []) := by
  constructor
  · obtain ⟨offers, answers, written, calls, -⟩ :=
      writing_offers_what_is_left .sinkStalled balky [1, 2, 3]
    have outcome : (balky.writeAll .sinkStalled [1, 2, 3]).1 = .error .sinkStalled := by cbv
    have made : (balky.writeAll .sinkStalled [1, 2, 3]).2.calls =
        [.write [3] 0, .write [3] 0, .write [1, 2, 3] 2] := by cbv
    have before : balky.calls = [] := rfl
    rw [made, before, List.append_nil] at calls
    obtain ⟨last, short⟩ := (written.fails .sinkStalled).mp outcome
    rw [← outcome]
    exact ⟨offers, answers, written, calls.symm, last, short⟩
  · obtain ⟨offers, answers, written, -, none⟩ :=
      writing_offers_what_is_left .sinkStalled balky []
    rw [none rfl] at written
    exact ⟨answers, written⟩

end ArchiveBrowser.Sink

import ArchiveBrowser.Stream.Outlet

/-!
# Sinks

An output that may take fewer bytes than it is offered, be interrupted, fail, or
have room for a limited number of bytes. How it is going to answer is part of its
value, and so is the record of every call made to it.

`writeAll` offers what has not been taken yet until nothing is left. Each call
either takes a byte or uses up an answer, so it ends.
-/

set_option autoImplicit false

namespace ArchiveBrowser

inductive Sink.Reply where
  | accept (most : Nat)
  | interrupted
  | failure (fault : Fault)
  deriving DecidableEq

inductive Sink.Call where
  | write (offered : Bytes) (accepted : Nat)
  | flush
  deriving DecidableEq

structure Sink where
  /-- The answers to the next writes; after them a sink takes whatever it is offered. -/
  script : List Sink.Reply
  room : Option Nat
  flushFault : Option Fault
  /-- Latest first. -/
  calls : List Sink.Call
  deriving DecidableEq

namespace Sink

def unlimited : Sink :=
  { script := [], room := none, flushFault := none, calls := [] }

def Call.received : Call → Bytes
  | write offered accepted => offered.take accepted
  | flush => []

def received (sink : Sink) : Bytes :=
  (sink.calls.reverse.map Call.received).flatten

def flushes (sink : Sink) : Nat :=
  sink.calls.countP (· == .flush)

inductive Written where
  | accepted (count : Nat)
  | interrupted
  | failed (fault : Fault)
  deriving DecidableEq

def record (sink : Sink) (offered : Bytes) (count : Nat) : Sink :=
  { sink with
    script := sink.script.tail
    room := sink.room.map (· - count)
    calls := .write offered count :: sink.calls }

/-- A write of which the answer allows `most` bytes. Where room is limited, a write
that takes nothing of something means that the sink is full. -/
def grant (sink : Sink) (offered : Bytes) (most : Nat) : Written × Sink :=
  match sink.room with
  | none =>
    let count := min most offered.length
    (.accepted count, sink.record offered count)
  | some room =>
    let count := min (min most offered.length) room
    if count = 0 && !offered.isEmpty then (.failed .sinkFull, sink.record offered 0)
    else (.accepted count, sink.record offered count)

def write (sink : Sink) (offered : Bytes) : Written × Sink :=
  match sink.script with
  | [] => sink.grant offered offered.length
  | .accept most :: _ => sink.grant offered most
  | .interrupted :: _ => (.interrupted, sink.record offered 0)
  | .failure fault :: _ => (.failed fault, sink.record offered 0)

def flush (sink : Sink) : Except Fault Unit × Sink :=
  let flushed := { sink with calls := .flush :: sink.calls }
  match sink.flushFault with
  | none => (.ok (), flushed)
  | some fault => (.error fault, flushed)

@[simp] theorem script_record (sink : Sink) (offered : Bytes) (count : Nat) :
    (sink.record offered count).script = sink.script.tail := rfl

theorem script_grant (sink : Sink) (offered : Bytes) (most : Nat) :
    (sink.grant offered most).2.script = sink.script.tail := by
  unfold grant
  split
  · rfl
  · dsimp only
    split <;> rfl

theorem script_write (sink : Sink) (offered : Bytes) :
    (sink.write offered).2.script = sink.script.tail := by
  unfold write
  split
  · exact script_grant ..
  · exact script_grant ..
  · rfl
  · rfl

theorem script_ne_nil_of_interrupted {sink after : Sink} {offered : Bytes}
    (written : sink.write offered = (.interrupted, after)) : sink.script ≠ [] := by
  intro exhausted
  simp only [write, exhausted, grant] at written
  split at written
  · simp at written
  · split at written <;> simp at written

def effort (sink : Sink) (bytes : Bytes) : Nat :=
  bytes.length + sink.script.length

theorem effort_lt_of_accepted {sink after : Sink} {bytes : Bytes} {count : Nat}
    (nonempty : bytes ≠ []) (written : sink.write bytes = (.accepted (count + 1), after)) :
    after.effort (bytes.drop (count + 1)) < sink.effort bytes := by
  have script := script_write sink bytes
  have length := List.length_pos_iff.mpr nonempty
  rw [written] at script
  simp only at script
  simp only [effort, List.length_drop, script, List.length_tail]
  omega

theorem effort_lt_of_interrupted {sink after : Sink} {bytes : Bytes}
    (written : sink.write bytes = (.interrupted, after)) :
    after.effort bytes < sink.effort bytes := by
  have script := script_write sink bytes
  have length := List.length_pos_iff.mpr (script_ne_nil_of_interrupted written)
  rw [written] at script
  simp only at script
  simp only [effort, script, List.length_tail]
  omega

/-- Offers `bytes` until all of them have been taken. A sink that takes nothing and
does not fail either is reported as `stalled`. -/
def writeAll (stalled : Fault) (sink : Sink) (bytes : Bytes) : Except Fault Unit × Sink :=
  if _ : bytes = [] then (.ok (), sink)
  else
    match _ : sink.write bytes with
    | (.accepted 0, after) => (.error stalled, after)
    | (.accepted (count + 1), after) => writeAll stalled after (bytes.drop (count + 1))
    | (.interrupted, after) => writeAll stalled after bytes
    | (.failed fault, after) => (.error fault, after)
termination_by sink.effort bytes
decreasing_by
  · exact effort_lt_of_accepted ‹_› ‹_›
  · exact effort_lt_of_interrupted ‹_›

/-- Copies report a stalled sink as such. -/
instance : Outlet Sink where
  put := writeAll .sinkStalled
  flush := flush

end Sink

end ArchiveBrowser

import ArchiveBrowser.Bytes
import ArchiveBrowser.Fault

/-!
# Sources of bytes

A source is the list of what its reads are going to meet. Data may be handed out
in any number of reads; an end of file, an interruption and a failure take one read
each, and a source that has nothing left is at its end for ever.

`next` is one read of a buffer that is not empty, with interruptions retried. The
main statement is `weight_lt_of_next_data`: a read that delivers data makes the
source smaller, which is why copying ends.
-/

set_option autoImplicit false

namespace ArchiveBrowser

/-- What a read may meet. Empty data looks like an end of file. -/
inductive Source.Item where
  | data (bytes : Bytes)
  | endOfFile
  | interrupted
  | failure (fault : Fault)
  deriving DecidableEq

/-- What the reads of a source are going to meet, in order. -/
abbrev Source := List Source.Item

namespace Source

inductive Chunk where
  | data (bytes : Bytes)
  | endOfFile
  | failed (fault : Fault)
  deriving DecidableEq

namespace Chunk

def isEndOfFile : Chunk → Bool
  | endOfFile => true
  | _ => false

def size : Chunk → Nat
  | data bytes => bytes.length
  | _ => 0

end Chunk

def ofBytes (bytes : Bytes) : Source :=
  if bytes.isEmpty then [] else [.data bytes]

/-- One read of at most `size` bytes, where `size` is not zero. -/
def next (size : Nat) : Source → Chunk × Source
  | [] => (.endOfFile, [])
  | .data bytes :: rest =>
    if bytes.isEmpty then (.endOfFile, rest)
    else if bytes.length ≤ size then (.data bytes, rest)
    else (.data (bytes.take size), .data (bytes.drop size) :: rest)
  | .endOfFile :: rest => (.endOfFile, rest)
  | .interrupted :: rest => next size rest
  | .failure fault :: rest => (.failed fault, rest)

/-- One read of at most `size` bytes. A read of no bytes leaves the source alone, and
is not an end of file. -/
def readChunk (source : Source) (size : Nat) : Chunk × Source :=
  if size = 0 then (.data [], source) else source.next size

def delivered : Source → Bytes
  | [] => []
  | .data bytes :: rest => if bytes.isEmpty then [] else bytes ++ delivered rest
  | .interrupted :: rest => delivered rest
  | .endOfFile :: _ | .failure _ :: _ => []

def fault? : Source → Option Fault
  | [] => none
  | .data bytes :: rest => if bytes.isEmpty then none else fault? rest
  | .interrupted :: rest => fault? rest
  | .endOfFile :: _ => none
  | .failure fault :: _ => some fault

def weight : Source → Nat
  | [] => 0
  | .data bytes :: rest => bytes.length + 1 + weight rest
  | .interrupted :: rest | .endOfFile :: rest | .failure _ :: rest => 1 + weight rest

theorem weight_lt_of_next_data {size : Nat} (positive : size ≠ 0) {source rest : Source}
    {bytes : Bytes} (read : source.next size = (.data bytes, rest)) :
    rest.weight < source.weight := by
  induction source with
  | nil => simp [next] at read
  | cons item later ih =>
    cases item with
    | data held =>
      simp only [next] at read
      split at read
      · simp at read
      · split at read
        · obtain ⟨-, rfl⟩ := Prod.mk.inj read
          simp only [weight]
          omega
        · obtain ⟨-, rfl⟩ := Prod.mk.inj read
          simp only [weight, List.length_drop]
          omega
    | endOfFile => simp [next] at read
    | interrupted =>
      have smaller := ih (by simpa only [next] using read)
      simp only [weight]
      omega
    | failure fault => simp [next] at read

def readUpTo (source : Source) (size : Nat) : Except Fault Bytes × Source :=
  if _ : size = 0 then (.ok [], source)
  else
    match _ : source.next size with
    | (.endOfFile, rest) => (.ok [], rest)
    | (.failed fault, rest) => (.error fault, rest)
    | (.data bytes, rest) =>
      let (later, rest) := readUpTo rest (size - bytes.length)
      (later.map (bytes ++ ·), rest)
termination_by source.weight
decreasing_by exact weight_lt_of_next_data ‹_› ‹_›

end Source

end ArchiveBrowser

import ArchiveBrowser.Deflate.Reader

/-!
# Prefix codes

A code is given by the length of the word of each symbol, zero for a symbol that is
not used. Words of one length are consecutive numbers in the order of their
symbols, and follow the words that are shorter. A word is read bit by bit down a
tree, most significant bit first.
-/

set_option autoImplicit false

namespace ArchiveBrowser.Deflate

inductive CodeTree where
  | vacant
  | symbol (value : Nat)
  | fork (zero one : CodeTree)

namespace CodeTree

def insert (value : Nat) : (word : Bits) → CodeTree → CodeTree
  | [], _ => symbol value
  | bit :: rest, tree =>
    let (zero, one) :=
      match tree with
      | fork zero one => (zero, one)
      | vacant | symbol _ => (vacant, vacant)
    if bit then fork zero (insert value rest one) else fork (insert value rest zero) one

def read : CodeTree → Reader Nat
  | vacant => .fail .invalid
  | symbol value => pure value
  | fork zero one => do
    let bit ← Reader.bit
    if bit then one.read else zero.read

end CodeTree

structure PrefixCode where
  zero : CodeTree
  one : CodeTree

namespace PrefixCode

def longest : Nat := 15

/-- The bits of `word`, a number of `width` bits, most significant first. -/
def wordBits (width word : Nat) : Bits :=
  (List.range width).reverse.map word.testBit

def usedSymbols (lengths : List Nat) : List (Nat × Nat) :=
  (List.range' 1 longest).flatMap fun width =>
    lengths.zipIdx.filter fun (length, _) => length = width

/-- How much of the space of words the lengths take, as a multiple of the room that a
longest word takes. -/
def spaceTaken (lengths : List Nat) : Nat :=
  (usedSymbols lengths).foldl (fun taken (length, _) => taken + 1 <<< (longest - length)) 0

def isComplete (lengths : List Nat) : Bool :=
  spaceTaken lengths = 1 <<< longest

/-- Each used symbol gets the next word of its length. -/
def assign (tree : CodeTree) (taken : Nat) : List (Nat × Nat) → CodeTree
  | [] => tree
  | (length, value) :: rest =>
    let room := 1 <<< (longest - length)
    assign (tree.insert value (wordBits length (taken / room))) (taken + room) rest

def ofLengths (lengths : List Nat) : PrefixCode :=
  match assign .vacant 0 (usedSymbols lengths) with
  | .fork zero one => { zero, one }
  | .vacant | .symbol _ => { zero := .vacant, one := .vacant }

/-- The code of the given lengths if it is complete, or if `allowSparse` and at most one
symbol is used. -/
def ofLengths? (lengths : List Nat) (allowSparse : Bool) : Option PrefixCode :=
  if isComplete lengths || (allowSparse && (usedSymbols lengths).length ≤ 1) then
    some (ofLengths lengths)
  else none

def readAfter (code : PrefixCode) (first : Bool) : Reader Nat :=
  if first then code.one.read else code.zero.read

def read (code : PrefixCode) : Reader Nat := do
  code.readAfter (← Reader.bit)

end PrefixCode

end ArchiveBrowser.Deflate

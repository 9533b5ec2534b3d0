import ArchiveBrowser.Bytes

/-!
# Containers

The bytes of a ZIP file, its fixed-size blocks, and the signatures by which its
structures are found. Numbers are laid out least significant byte first.
-/

set_option autoImplicit false

namespace ArchiveBrowser.Zip

abbrev Container := Array UInt8

structure Signature where
  third : UInt8
  fourth : UInt8
  deriving DecidableEq

namespace Signature

def localHeader : Signature := ⟨3, 4⟩

def directoryRecord : Signature := ⟨1, 2⟩

def endRecord : Signature := ⟨5, 6⟩

def wideEnd : Signature := ⟨6, 6⟩

def wideEndLocator : Signature := ⟨6, 7⟩

def spanned : Signature := ⟨7, 8⟩

def bytes (signature : Signature) : Bytes :=
  [0x50, 0x4b, signature.third, signature.fourth]

end Signature

def field (block : Bytes) (offset width : Nat) : Nat :=
  Bytes.littleEndian ((block.drop offset).take width)

namespace Container

def slice (container : Container) (start length : Nat) : Bytes :=
  (container.extract start (start + length)).toList

def block? (container : Container) (start length : Nat) : Option Bytes :=
  if start + length ≤ container.size then some (container.slice start length) else none

def signedAt (container : Container) (signature : Signature) (position : Nat) : Bool :=
  container[position]? == some 0x50 && container[position + 1]? == some 0x4b &&
    container[position + 2]? == some signature.third &&
    container[position + 3]? == some signature.fourth

def positions (container : Container) (signature : Signature) (start stop : Nat) : List Nat :=
  (List.range' start (stop - 3 - start)).filter (container.signedAt signature)

end Container

end ArchiveBrowser.Zip

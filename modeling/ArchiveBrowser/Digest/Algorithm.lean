import ArchiveBrowser.Digest.Crc32
import ArchiveBrowser.Digest.Md5
import ArchiveBrowser.Digest.Sha256

/-!
# Digest algorithms

The three digests that a file can be given, by name. Every digest is shown in
lower-case hexadecimal, two digits per byte.
-/

set_option autoImplicit false

namespace ArchiveBrowser.Digest

inductive Algorithm where
  | crc32
  | md5
  | sha256
  deriving DecidableEq

namespace Algorithm

def standard : Algorithm := sha256

def name : Algorithm → String
  | crc32 => "crc32"
  | md5 => "md5"
  | sha256 => "sha256"

def hexLength : Algorithm → Nat
  | crc32 => 8
  | md5 => 32
  | sha256 => 64

/-- The lower-cased text that names no algorithm. -/
structure Unknown where
  text : String
  deriving DecidableEq

def Unknown.message (unknown : Unknown) : String :=
  s!"unknown digest algorithm: {unknown.text}"

/-- Reads a name in any mixture of cases; a hyphen may set off the number. -/
def parse (text : String) : Except Unknown Algorithm :=
  let lowered := text.toLower
  if lowered = "crc32" || lowered = "crc-32" then .ok crc32
  else if lowered = "md5" then .ok md5
  else if lowered = "sha256" || lowered = "sha-256" then .ok sha256
  else .error ⟨lowered⟩

def digest : Algorithm → Bytes → String
  | crc32, bytes => (Crc32.initial.update bytes).result.hex
  | md5, bytes => (Md5.scheme.compute bytes).hex
  | sha256, bytes => (Sha256.scheme.compute bytes).hex

end Algorithm

end ArchiveBrowser.Digest

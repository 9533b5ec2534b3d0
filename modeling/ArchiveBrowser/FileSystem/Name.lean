import ArchiveBrowser.Path.Bytewise
import ArchiveBrowser.Text.Utf8

/-!
# File names

The names that an entry of a directory can have, and the places to which sequences of
them lead. A name is a string of bytes without a slash or a NUL. The bytes need not be
those of a text; where they are shown as one, whatever is malformed is replaced, so
that different names can look alike.
-/

set_option autoImplicit false

namespace ArchiveBrowser

def FileName.limit : Nat := 255

def FileName.isLegal (bytes : Bytes) : Bool :=
  !bytes.isEmpty && bytes != Path.Bytewise.current && bytes != Path.Bytewise.parent &&
    !bytes.contains 0x2f && !bytes.contains 0 && bytes.length ≤ FileName.limit

structure FileName where
  bytes : Bytes
  legal : FileName.isLegal bytes = true
  deriving DecidableEq

namespace FileName

def ofBytes? (bytes : Bytes) : Option FileName :=
  if legal : isLegal bytes = true then some ⟨bytes, legal⟩ else none

def ofText? (text : String) : Option FileName :=
  ofBytes? (Bytes.ofText text)

/-- The name as it is shown. -/
def text (name : FileName) : String :=
  Text.Utf8.decodeLenient name.bytes

end FileName

/-- A place in a file system: the names that lead to it from the root. -/
abbrev Location := List FileName

end ArchiveBrowser

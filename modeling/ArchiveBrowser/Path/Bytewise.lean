import ArchiveBrowser.Bytes
import ArchiveBrowser.Path.Components

/-!
# Paths of bytes

To the file system a path is a string of bytes, which need not be the bytes of a text. Operations
on paths look at slashes and dots alone, so a path of bytes is taken apart as the text that has a
letter for each byte.
-/

set_option autoImplicit false

namespace ArchiveBrowser.Path.Bytewise

def current : Bytes := [0x2e]

def parent : Bytes := [0x2e, 0x2e]

def isAbsolute (path : Bytes) : Bool :=
  Path.isAbsolute path.letters

def pieces (path : Bytes) : List Bytes :=
  (Path.pieces path.letters).map Bytes.ofLetters

def push (path next : Bytes) : Bytes :=
  .ofLetters (Path.push path.letters next.letters)

def relative (path base : Bytes) : Bytes :=
  .ofLetters (Path.relative path.letters base.letters)

end ArchiveBrowser.Path.Bytewise

/-!
# Slash-separated paths

Every path of the library is a text cut at slashes. A path inside an archive starts
with a slash and is taken literally: `segments?` keeps empty segments, and neither
`.` nor `..` means anything to it.
-/

set_option autoImplicit false

namespace ArchiveBrowser.Path

def separator : Char := '/'

def isAbsolute (path : String) : Bool :=
  path.toList.head? == some separator

def endsWithSeparator (path : String) : Bool :=
  path.toList.getLast? == some separator

/-- The texts between the slashes, of which there is one more than there are slashes. -/
def pieces (path : String) : List String :=
  (path.toList.splitOn separator).map String.ofList

def afterRoot? (path : String) : Option String :=
  match path.toList with
  | '/' :: rest => some (String.ofList rest)
  | _ => none

/-- The segments of a path inside an archive; the root has none. -/
def segments? (path : String) : Option (List String) :=
  (afterRoot? path).map fun rest => if rest.isEmpty then [] else pieces rest

end ArchiveBrowser.Path

import ArchiveBrowser.Path.Segments

/-!
# Joining and cutting paths

Purely textual operations. Cutting takes either slash as a separator, whereas
joining writes the forward one.
-/

set_option autoImplicit false

namespace ArchiveBrowser.Path

def isSlash (c : Char) : Bool :=
  c == '/' || c == '\\'

def fileName (path : String) : String :=
  String.ofList (path.toList.reverse.takeWhile fun c => !isSlash c).reverse

/-- What precedes the last slash of either kind, or nothing if there is none. -/
def parent (path : String) : String :=
  String.ofList ((path.toList.reverse.dropWhile fun c => !isSlash c).drop 1).reverse

def withoutTrailingSeparator (path : String) : String :=
  if endsWithSeparator path then String.ofList path.toList.dropLast else path

/-- Puts one separator between `directory`, less one at its end, and `path`, which is
kept as it is even if it is absolute. -/
def join (directory path : String) : String :=
  withoutTrailingSeparator directory ++ "/" ++ path

def child (directory name : String) : String :=
  if endsWithSeparator directory then directory ++ name else directory ++ "/" ++ name

end ArchiveBrowser.Path

import ArchiveBrowser.Glob.Pattern

/-!
# Matching names

Whether a pattern matches is found from its last part to its first. At each part
there is a row of answers: for every ending of the name, the whole name first and
the empty ending last, whether the parts from there on match it.
-/

set_option autoImplicit false

namespace ArchiveBrowser.Glob

def beforeCharacter (admits : Char → Bool) (name : List Char) (row : List Bool) : List Bool :=
  List.zipWith (fun c later => admits c && later) name row.tail ++ [false]

def beforeSequence : (row : List Bool) → List Bool
  | [] => []
  | here :: row =>
    let later := beforeSequence row
    (here || later.headD false) :: later

/-- Where whole components may be taken before going on: a component ends at a slash
or with the name. -/
def afterComponents : (name : List Char) → (row : List Bool) → List Bool
  | c :: name, _ :: row =>
    let later := afterComponents name row
    ((c == Path.separator && row.headD false) || later.headD false) :: later
  | _, row => row

def beforeComponents (name : List Char) (row : List Bool) : List Bool :=
  List.zipWith (· || ·) row (afterComponents name row)

def Token.before (name : List Char) (row : List Bool) : Token → List Bool
  | literal c => beforeCharacter (· == c) name row
  | anyCharacter => beforeCharacter (fun _ => true) name row
  | oneOf specifiers => beforeCharacter (fun c => specifiers.any (·.admits c)) name row
  | noneOf specifiers => beforeCharacter (fun c => !specifiers.any (·.admits c)) name row
  | anySequence => beforeSequence row
  | anyComponents => beforeComponents name row

/-- The row of a pattern: nothing but the empty ending matches no parts. -/
def Pattern.row (pattern : Pattern) (name : List Char) : List Bool :=
  pattern.foldr (fun token row => token.before name row)
    (List.replicate name.length false ++ [true])

def Pattern.matches (pattern : Pattern) (name : String) : Bool :=
  (Pattern.row pattern name.toList).headD false

structure Filter where
  /-- If there are any, a name has to match one of them. -/
  includes : List String
  excludes : List String

/-- The pattern that `text` spells matches; a text that spells none matches nothing. -/
def textMatches (name text : String) : Bool :=
  match parse? text with
  | none => false
  | some pattern => Pattern.matches pattern name

def Filter.admits (filter : Filter) (name : String) : Bool :=
  !filter.excludes.any (textMatches name) &&
    (filter.includes.isEmpty || filter.includes.any (textMatches name))

end ArchiveBrowser.Glob

import ArchiveBrowser.Bytes

/-!
# Indented JSON

JSON documents as sequences of small texts, in the order and division in which they
are written: a bracket, the break and each step of the indentation before a member,
a key, a colon, and the runs between the characters of a text that have to be
escaped.
-/

set_option autoImplicit false

namespace ArchiveBrowser.Json

abbrev Pieces := List String

def indentStep : String := "  "

def escape? (c : Char) : Option String :=
  match c with
  | '"' => some "\\\""
  | '\\' => some "\\\\"
  | '\x08' => some "\\b"
  | '\x0c' => some "\\f"
  | '\n' => some "\\n"
  | '\r' => some "\\r"
  | '\t' => some "\\t"
  | c => if c.toNat < 0x20 then some ("\\u00" ++ Bytes.hex [UInt8.ofNat c.toNat]) else none

/-- The run `run`, whose last character comes first, if it is not empty. -/
def closeRun (run : List Char) : Pieces :=
  if run.isEmpty then [] else [String.ofList run.reverse]

def contentPieces (run : List Char) : (text : List Char) → Pieces
  | [] => closeRun run
  | c :: rest =>
    match escape? c with
    | none => contentPieces (c :: run) rest
    | some escaped => closeRun run ++ escaped :: contentPieces [] rest

def text (content : String) : Pieces :=
  "\"" :: contentPieces [] content.toList ++ ["\""]

def boolean (value : Bool) : Pieces :=
  [if value then "true" else "false"]

/-- A break, which a comma precedes unless it is the first, and the indentation of what
is `depth` brackets deep. -/
def lineStart (isFirst : Bool) (depth : Nat) : Pieces :=
  (if isFirst then "\n" else ",\n") :: List.replicate depth indentStep

def members (depth : Nat) (isFirst : Bool) : (parts : List Pieces) → Pieces
  | [] => []
  | part :: rest => lineStart isFirst depth ++ part ++ members depth false rest

/-- Members between brackets that are `depth` brackets deep. Nothing separates the
brackets if there are no members. -/
def bracketed (opening closing : String) (depth : Nat) (parts : List Pieces) : Pieces :=
  opening :: members (depth + 1) true parts ++
    (if parts.isEmpty then [] else lineStart true depth) ++ [closing]

def array (depth : Nat) (elements : List Pieces) : Pieces :=
  bracketed "[" "]" depth elements

def object (depth : Nat) (fields : List (String × Pieces)) : Pieces :=
  bracketed "\x7b" "\x7d" depth (fields.map fun (key, value) => text key ++ ": " :: value)

end ArchiveBrowser.Json

import ArchiveBrowser.Archive.Basic

/-!
# Archive URIs

A scheme, `://`, and a path that is taken as it is. Schemes are compared without
regard to the case of their letters.
-/

set_option autoImplicit false

namespace ArchiveBrowser

structure Uri where
  /-- In lower case. -/
  scheme : String
  path : String
  deriving DecidableEq

namespace Uri

def separator : String := "://"

def split? : (text : List Char) → Option (List Char × List Char)
  | [] => none
  | first :: rest =>
    match first, rest with
    | ':', '/' :: '/' :: path => some ([], path)
    | first, rest => (split? rest).map fun (scheme, path) => (first :: scheme, path)

inductive Flaw where
  | noSeparator
  | noScheme
  | schemeStart
  | schemeCharacter
  | noPath
  deriving DecidableEq

def Flaw.message : Flaw → String
  | noSeparator => "missing \"://\""
  | noScheme => "empty scheme"
  | schemeStart => "scheme must start with a letter"
  | schemeCharacter => "invalid character in scheme"
  | noPath => "empty path"

def isSchemeCharacter (c : Char) : Bool :=
  c.isAlphanum || c == '+' || c == '-' || c == '.'

def schemeFlaw? : (scheme : List Char) → Option Flaw
  | [] => some .noScheme
  | first :: rest =>
    if !first.isAlpha then some .schemeStart
    else if !rest.all isSchemeCharacter then some .schemeCharacter
    else none

def read (text : String) : Except Flaw Uri :=
  match split? text.toList with
  | none => .error .noSeparator
  | some (scheme, path) =>
    match schemeFlaw? scheme with
    | some flaw => .error flaw
    | none =>
      if path.isEmpty then .error .noPath
      else .ok { scheme := (String.ofList scheme).toLower, path := String.ofList path }

def parse (text : String) : Except Error Uri :=
  (read text).mapError fun flaw => .invalidUri text flaw.message

def render (uri : Uri) : String :=
  uri.scheme ++ separator ++ uri.path

def kind? (uri : Uri) : Option Archive.Kind :=
  Archive.Kind.ofScheme? uri.scheme

def isMeant (text : String) : Bool :=
  (split? text.toList).isSome

end Uri

end ArchiveBrowser

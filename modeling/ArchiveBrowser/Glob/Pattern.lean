import ArchiveBrowser.Path.Segments

/-!
# Name patterns

A pattern matches whole names, character by character: `?` is any character, `*` any
sequence, `[…]` one of some characters, `[!…]` any other, and `**` as a whole
component any number of whole components. All else stands for itself, and nothing
can be escaped.
-/

set_option autoImplicit false

namespace ArchiveBrowser.Glob

inductive Specifier where
  | single (c : Char)
  | range (low high : Char)
  deriving DecidableEq

def Specifier.admits (c : Char) : Specifier → Bool
  | single other => c == other
  | range low high => low ≤ c && c ≤ high

inductive Token where
  | literal (c : Char)
  | anyCharacter
  | anySequence
  | anyComponents
  | oneOf (specifiers : List Specifier)
  | noneOf (specifiers : List Specifier)
  deriving DecidableEq

abbrev Pattern := List Token

/-- What a bracket holds: a hyphen between two characters makes a range of them. -/
def specifiers : (inside : List Char) → List Specifier
  | low :: '-' :: high :: rest => .range low high :: specifiers rest
  | c :: rest => .single c :: specifiers rest
  | [] => []

def untilClosing? : List Char → Option (List Char × List Char)
  | [] => none
  | c :: rest =>
    if c = ']' then some ([], rest)
    else (untilClosing? rest).map fun (inside, after) => (c :: inside, after)

theorem length_lt_of_until_closing {text inside after : List Char}
    (closed : untilClosing? text = some (inside, after)) : after.length < text.length := by
  induction text generalizing inside with
  | nil => simp [untilClosing?] at closed
  | cons c rest ih =>
    simp only [untilClosing?] at closed
    split at closed
    · simp_all
    · simp only [Option.map_eq_some_iff] at closed
      obtain ⟨⟨held, left⟩, found, same⟩ := closed
      simp only [Prod.mk.injEq] at same
      obtain ⟨-, rfl⟩ := same
      have shorter := ih found
      simp only [List.length_cons]
      omega

/-- Reads what is left of a pattern behind `previous`, which is absent at the start. A
bracket holds at least one character, so that a closing bracket may be the first. -/
def parseFrom? (previous : Option Char) (text : List Char) : Option Pattern :=
  match text with
  | [] => some []
  | '?' :: rest => (parseFrom? (some '?') rest).map (.anyCharacter :: ·)
  | '*' :: '*' :: '*' :: _ => none
  | '*' :: '*' :: rest =>
    if previous = none || previous = some Path.separator then
      match rest with
      | [] => some [.anyComponents]
      | '/' :: rest => (parseFrom? (some '/') rest).map (.anyComponents :: ·)
      | _ => none
    else none
  | '*' :: rest => (parseFrom? (some '*') rest).map (.anySequence :: ·)
  | '[' :: '!' :: first :: rest =>
    match _ : untilClosing? rest with
    | none => none
    | some (inside, rest) =>
      (parseFrom? (some ']') rest).map (.noneOf (specifiers (first :: inside)) :: ·)
  | '[' :: first :: rest =>
    if first = '!' then none
    else
      match _ : untilClosing? rest with
      | none => none
      | some (inside, rest) =>
        (parseFrom? (some ']') rest).map (.oneOf (specifiers (first :: inside)) :: ·)
  | '[' :: [] => none
  | c :: rest => (parseFrom? (some c) rest).map (.literal c :: ·)
termination_by text.length
decreasing_by
  all_goals simp only [List.length_cons]
  all_goals first
    | omega
    | (have shorter := length_lt_of_until_closing ‹_›; omega)

def parse? (text : String) : Option Pattern :=
  parseFrom? none text.toList

end ArchiveBrowser.Glob

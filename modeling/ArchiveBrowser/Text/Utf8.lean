import ArchiveBrowser.Bytes

/-!
# Reading UTF-8

A byte string is cut into well-formed sequences and malformed runs. A malformed
run is as long as the bytes still agree with some well-formed sequence, and at
least one byte. The strict reading refuses any malformed run; the lenient one
shows each of them as one replacement character.
-/

set_option autoImplicit false

namespace ArchiveBrowser.Text.Utf8

def isContinuation (byte : UInt8) : Bool :=
  0x80 ≤ byte && byte ≤ 0xbf

/-- What may follow the lead byte: how many continuation bytes in all, and the
bounds of the first of them, which exclude overlong forms, surrogates and code
points past the last. `none` for a byte that starts no sequence. -/
def following (lead : UInt8) : Option (Nat × UInt8 × UInt8) :=
  if lead < 0x80 then some (0, 0, 0)
  else if 0xc2 ≤ lead && lead ≤ 0xdf then some (1, 0x80, 0xbf)
  else if lead = 0xe0 then some (2, 0xa0, 0xbf)
  else if lead = 0xed then some (2, 0x80, 0x9f)
  else if 0xe1 ≤ lead && lead ≤ 0xef then some (2, 0x80, 0xbf)
  else if lead = 0xf0 then some (3, 0x90, 0xbf)
  else if lead = 0xf4 then some (3, 0x80, 0x8f)
  else if 0xf1 ≤ lead && lead ≤ 0xf3 then some (3, 0x80, 0xbf)
  else none

def leadBits (lead : UInt8) (count : Nat) : Nat :=
  match count with
  | 0 => lead.toNat
  | 1 => lead.toNat % 0x20
  | 2 => lead.toNat % 0x10
  | _ => lead.toNat % 0x08

/-- The bytes of `rest` that may continue a sequence whose first continuation byte has
these bounds. -/
def agreeing (low high : UInt8) (rest : Bytes) : Bytes :=
  match rest with
  | [] => []
  | next :: later =>
    if low ≤ next && next ≤ high then next :: (later.take 2).takeWhile isContinuation else []

/-- The sequence or malformed run that starts with `lead`, and how many bytes of
`rest` belong to it. -/
def first (lead : UInt8) (rest : Bytes) : Option Char × Nat :=
  match following lead with
  | none => (none, 0)
  | some (count, low, high) =>
    let used := (agreeing low high rest).take count
    if used.length = count then
      let code := used.foldl (fun code byte => code * 0x40 + byte.toNat % 0x40) (leadBits lead count)
      (some (Char.ofNat code), count)
    else
      (none, used.length)

def sequences : Bytes → List (Option Char)
  | [] => []
  | lead :: rest =>
    let (char, used) := first lead rest
    char :: sequences (rest.drop used)
termination_by bytes => bytes.length
decreasing_by simp only [List.length_drop, List.length_cons]; omega

def decode? (bytes : Bytes) : Option String :=
  ((sequences bytes).mapM id).map String.ofList

/-- The text with a replacement character for each malformed run. -/
def decodeLenient (bytes : Bytes) : String :=
  String.ofList ((sequences bytes).map (·.getD '\ufffd'))

end ArchiveBrowser.Text.Utf8

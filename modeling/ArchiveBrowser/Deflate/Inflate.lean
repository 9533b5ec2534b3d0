import ArchiveBrowser.Deflate.PrefixCode

/-!
# Inflating

A deflate stream is a sequence of blocks. A block holds bytes as they are, or
symbols in two prefix codes: bytes, and copies of what has been written before.
The codes of a block are fixed or described at its start. What follows the last
block is not looked at.
-/

set_option autoImplicit false

namespace ArchiveBrowser.Deflate

abbrev Output := Array UInt8

inductive Token where
  | literal (byte : UInt8)
  | endOfBlock
  | copy (length distance : Nat)

structure Codes where
  literals : PrefixCode
  distances : PrefixCode

/-- The least length of each length symbol, and the number of bits that add to it. -/
def lengthSymbols : Array (Nat × Nat) :=
  #[(3, 0), (4, 0), (5, 0), (6, 0), (7, 0), (8, 0), (9, 0), (10, 0), (11, 1), (13, 1), (15, 1),
    (17, 1), (19, 2), (23, 2), (27, 2), (31, 2), (35, 3), (43, 3), (51, 3), (59, 3), (67, 4),
    (83, 4), (99, 4), (115, 4), (131, 5), (163, 5), (195, 5), (227, 5), (258, 0)]

def distanceSymbols : Array (Nat × Nat) :=
  #[(1, 0), (2, 0), (3, 0), (4, 0), (5, 1), (7, 1), (9, 2), (13, 2), (17, 3), (25, 3), (33, 4),
    (49, 4), (65, 5), (97, 5), (129, 6), (193, 6), (257, 7), (385, 7), (513, 8), (769, 8),
    (1025, 9), (1537, 9), (2049, 10), (3073, 10), (4097, 11), (6145, 11), (8193, 12), (12289, 12),
    (16385, 13), (24577, 13)]

def readMeasure (symbols : Array (Nat × Nat)) (symbol : Nat) : Reader Nat :=
  match symbols[symbol]? with
  | none => .fail .invalid
  | some (least, width) => do
    let more ← Reader.number width
    pure (least + more)

def Codes.readToken (codes : Codes) (first : Bool) : Reader Token := do
  let symbol ← codes.literals.readAfter first
  if symbol < 256 then pure (.literal (UInt8.ofNat symbol))
  else if symbol = 256 then pure .endOfBlock
  else do
    let length ← readMeasure lengthSymbols (symbol - 257)
    let distance ← readMeasure distanceSymbols (← codes.distances.read)
    pure (.copy length distance)

/-- Writes `length` bytes, each as it stands `distance` bytes before. -/
def Output.copyBack (output : Output) (length distance : Nat) : Output :=
  Nat.repeat (fun written => written.push (written.getD (written.size - distance) 0)) length output

def expand (codes : Codes) (limit : Nat) (output : Output) (bits : Bits)
    (within : bits.length ≤ limit) : Except Flaw { read : Output × Bits // read.2.length ≤ limit } :=
  match bits with
  | [] => .error .truncated
  | first :: bits =>
    match (codes.readToken first).run bits with
    | .error flaw => .error flaw
    | .ok ⟨(token, rest), shorter⟩ =>
      have within : rest.length ≤ limit :=
        Nat.le_trans shorter (Nat.le_trans (Nat.le_succ _) within)
      match token with
      | .endOfBlock => .ok ⟨(output, rest), within⟩
      | .literal byte => expand codes limit (output.push byte) rest within
      | .copy length distance =>
        if distance ≤ output.size then
          expand codes limit (output.copyBack length distance) rest within
        else .error .invalid
termination_by bits.length
decreasing_by all_goals exact Nat.lt_succ_of_le shorter

def readTokens (codes : Codes) (output : Output) : Reader Output where
  run bits := expand codes bits.length output bits (Nat.le_refl _)

def Codes.fixed : Codes :=
  { literals := .ofLengths (List.replicate 144 8 ++ List.replicate 112 9 ++ List.replicate 24 7 ++
      List.replicate 8 8)
    distances := .ofLengths (List.replicate 32 5) }

def lengthOrder : List Nat :=
  [16, 17, 18, 0, 8, 7, 9, 6, 10, 5, 11, 4, 12, 3, 13, 2, 14, 1, 15]

/-- What a symbol of the code for lengths adds to `lengths`, which are latest first. -/
def readRun (symbol : Nat) (lengths : List Nat) : Reader (List Nat) := do
  if symbol < 16 then pure [symbol]
  else if symbol = 16 then
    match lengths with
    | [] => .fail .invalid
    | last :: _ =>
      let more ← Reader.number 2
      pure (List.replicate (3 + more) last)
  else if symbol = 17 then
    let more ← Reader.number 3
    pure (List.replicate (3 + more) 0)
  else
    let more ← Reader.number 7
    pure (List.replicate (11 + more) 0)

/-- Reads lengths, at most `symbols` symbols, until there are `count` of them. They are
latest first; a run may not go beyond the last. -/
def readLengths (code : PrefixCode) (count : Nat) : (symbols : Nat) → (lengths : List Nat) →
    Reader (List Nat)
  | 0, lengths => pure lengths
  | symbols + 1, lengths =>
    if count ≤ lengths.length then
      if count = lengths.length then pure lengths else .fail .invalid
    else do
      let run ← readRun (← code.read) lengths
      readLengths code count symbols (run ++ lengths)

def readCodes : Reader Codes := do
  let literals ← Reader.number 5
  let distances ← Reader.number 5
  let described ← Reader.number 4
  let literals := literals + 257
  let distances := distances + 1
  if 286 < literals || 30 < distances then .fail .invalid
  else do
    let widths ← (Reader.number 3).list (described + 4)
    let ordered := lengthOrder.zip widths
    let widths := (List.range 19).map fun symbol => (ordered.lookup symbol).getD 0
    match PrefixCode.ofLengths? widths false with
    | none => .fail .invalid
    | some code =>
      let count := literals + distances
      let lengths ← readLengths code count (count + 1) []
      let lengths := lengths.reverse
      match PrefixCode.ofLengths? (lengths.take literals) true,
        PrefixCode.ofLengths? (lengths.drop literals) true with
      | some literals, some distances => pure { literals, distances }
      | _, _ => .fail .invalid

def byteOfBits (bits : Bits) : UInt8 :=
  UInt8.ofNat (bits.foldr (fun bit high => bit.toNat + 2 * high) 0)

def Output.pushBits (output : Output) : Bits → Output
  | b0 :: b1 :: b2 :: b3 :: b4 :: b5 :: b6 :: b7 :: rest =>
    Output.pushBits (output.push (byteOfBits [b0, b1, b2, b3, b4, b5, b6, b7])) rest
  | _ => output

def readStored (output : Output) : Reader Output := do
  Reader.alignToByte
  let length ← Reader.number 16
  let complement ← Reader.number 16
  if length + complement ≠ 0xffff then .fail .invalid
  else do
    let bits ← Reader.take (8 * length)
    pure (output.pushBits bits)

/-- Reads the rest of a block of which only the first bit has been read. -/
def readBlock (output : Output) : Reader Output := do
  match ← Reader.number 2 with
  | 0 => readStored output
  | 1 => readTokens .fixed output
  | 2 => readTokens (← readCodes) output
  | _ => .fail .invalid

/-- Writes blocks up to the last, whose first bit is set. -/
def inflateBlocks (output : Output) (bits : Bits) : Except Flaw Output :=
  match bits with
  | [] => .error .truncated
  | last :: bits =>
    match (readBlock output).run bits with
    | .error flaw => .error flaw
    | .ok ⟨(output, rest), _⟩ => if last then .ok output else inflateBlocks output rest
termination_by bits.length
decreasing_by exact Nat.lt_succ_of_le ‹rest.length ≤ bits.length›

def inflate (bytes : Bytes) : Except Flaw Bytes :=
  (inflateBlocks #[] (Bits.ofBytes bytes)).map Array.toList

end ArchiveBrowser.Deflate

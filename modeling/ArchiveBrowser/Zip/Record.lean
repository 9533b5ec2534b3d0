import ArchiveBrowser.Digest.Crc32
import ArchiveBrowser.Text.CodePage437
import ArchiveBrowser.Text.Utf8
import ArchiveBrowser.Zip.Container

/-!
# Directory records

A record names an entry and says where it is. Extra fields behind the name may
replace what the record says. Extra data that ends too early is no flaw: what has
been read until then counts.
-/

set_option autoImplicit false

namespace ArchiveBrowser.Zip

def storedMethod : Nat := 0

def deflatedMethod : Nat := 8

/-- The method of an entry whose own method is in an extra field. -/
def strongMethod : Nat := 99

/-- The mark of a number that does not fit into four bytes. -/
def wideMark : Nat := 0xffffffff

structure Record where
  rawName : Bytes
  name : String
  comment : String
  isEncrypted : Bool
  isStrong : Bool
  method : Nat
  checksum : Nat
  compressedSize : Nat
  uncompressedSize : Nat
  offset : Nat

namespace Record

inductive ExtraStep where
  | proceed (record : Record) (rest : Bytes)
  | stop (record : Record)
  | refuse

def number? (width : Nat) (bytes : Bytes) : Option (Nat × Bytes) :=
  if bytes.length < width then none
  else some (Bytes.littleEndian (bytes.take width), bytes.drop width)

def skip (length : Nat) (record : Record) (bytes : Bytes) : ExtraStep :=
  if bytes.length < length then .stop record else .proceed record (bytes.drop length)

inductive WideNumber where
  | uncompressedSize
  | compressedSize
  | offset

def WideNumber.get (record : Record) : WideNumber → Nat
  | uncompressedSize => record.uncompressedSize
  | compressedSize => record.compressedSize
  | offset => record.offset

def WideNumber.set (record : Record) (value : Nat) : WideNumber → Record
  | uncompressedSize => { record with uncompressedSize := value }
  | compressedSize => { record with compressedSize := value }
  | offset => { record with offset := value }

/-- Reads the wide numbers of a field of `length` bytes, of which `used` are read. A
number is there if the field has room for all of them or the record asks for it. -/
def readWideNumbers (length : Nat) (record : Record) (used : Nat) (bytes : Bytes) :
    List WideNumber → ExtraStep
  | [] => if length < used then .refuse else skip (length - used) record bytes
  | wide :: others =>
    if 24 ≤ length || wide.get record = wideMark then
      match number? 8 bytes with
      | none => .stop record
      | some (value, rest) =>
        readWideNumbers length (wide.set record value) (used + 8) rest others
    else readWideNumbers length record used bytes others

def readNtfsTimes (length : Nat) (record : Record) (bytes : Bytes) : ExtraStep :=
  if length ≠ 32 then .refuse
  else
    match number? 4 bytes with
    | none => .stop record
    | some (_, bytes) =>
      match number? 2 bytes with
      | none => .stop record
      | some (tag, bytes) =>
        if tag ≠ 1 then .refuse
        else
          match number? 2 bytes with
          | none => .stop record
          | some (size, bytes) => if size ≠ 24 then .refuse else skip 24 record bytes

def bitCount (byte : Nat) : Nat :=
  (List.range 8).countP byte.testBit

/-- Checks times in seconds, whose flags tell how many there are. -/
def readUnixTimes (length : Nat) (record : Record) (bytes : Bytes) : ExtraStep :=
  match number? 1 bytes with
  | none => .stop record
  | some (flags, bytes) =>
    if length ≠ 5 && length ≠ 1 + 4 * bitCount flags then .refuse
    else if 7 < flags then .refuse
    else skip (length - 1) record bytes

def readStrongEncryption (length : Nat) (record : Record) (bytes : Bytes) : ExtraStep :=
  if length ≠ 7 then .refuse
  else if bytes.length < 7 then .stop record
  else
    let version := field bytes 0 2
    let vendor := field bytes 2 2
    let strength := field bytes 4 1
    if vendor ≠ 0x4541 || version < 1 || 2 < version || strength < 1 || 3 < strength then .refuse
    else .proceed { record with method := field bytes 5 2, isStrong := true } (bytes.drop 7)

def readText (length : Nat) (record : Record) (replaced : Bytes) (bytes : Bytes)
    (replace : (raw : Bytes) → (text : String) → Record) : ExtraStep :=
  match number? 5 bytes with
  | none => .stop record
  | some (versionAndChecksum, bytes) =>
    if length < 5 then .refuse
    else if bytes.length < length - 5 then .stop record
    else
      let raw := bytes.take (length - 5)
      if versionAndChecksum / 256 ≠ (Digest.Crc32.compute replaced).toNat then .refuse
      else
        match Text.Utf8.decode? raw with
        | none => .refuse
        | some text => .proceed (replace raw text) (bytes.drop (length - 5))

def readExtraField (kind length : Nat) (record : Record) (bytes : Bytes) : ExtraStep :=
  match kind with
  | 0x0001 =>
    readWideNumbers length record 0 bytes [.uncompressedSize, .compressedSize, .offset]
  | 0x000a => readNtfsTimes length record bytes
  | 0x5455 => readUnixTimes length record bytes
  | 0x9901 => readStrongEncryption length record bytes
  | 0x6375 =>
    readText length record (Bytes.ofText record.comment) bytes fun _ text =>
      { record with comment := text }
  | 0x7075 =>
    readText length record record.rawName bytes fun raw text =>
      { record with rawName := raw, name := text }
  | _ => skip length record bytes

/-- Reads at most `fields` extra fields; `none` if one of them is malformed. -/
def readExtra (record : Record) (bytes : Bytes) : (fields : Nat) → Option Record
  | 0 => some record
  | fields + 1 =>
    match number? 2 bytes with
    | none => some record
    | some (kind, bytes) =>
      match number? 2 bytes with
      | none => some record
      | some (length, bytes) =>
        match readExtraField kind length record bytes with
        | .refuse => none
        | .stop record => some record
        | .proceed record rest => readExtra record rest fields

def decodeText (isUtf8 : Bool) (bytes : Bytes) : String :=
  if isUtf8 then Text.Utf8.decodeLenient bytes else Text.CodePage437.decode bytes

/-- Reads the record at `position`, and tells where the next one is. Positions in the
record are to be moved by `shift`. -/
def read? (container : Container) (shift position : Nat) : Option (Record × Nat) := do
  let block ← container.block? position 46
  if block.take 4 ≠ Signature.directoryRecord.bytes then none
  let flags := field block 8 2
  let nameLength := field block 28 2
  let extraLength := field block 30 2
  let commentLength := field block 32 2
  let rawName ← container.block? (position + 46) nameLength
  let extra ← container.block? (position + 46 + nameLength) extraLength
  let rawComment ← container.block? (position + 46 + nameLength + extraLength) commentLength
  let isUtf8 := flags.testBit 11
  let record : Record :=
    { rawName
      name := decodeText isUtf8 rawName
      comment := decodeText isUtf8 rawComment
      isEncrypted := flags.testBit 0
      isStrong := false
      method := field block 10 2
      checksum := field block 16 4
      compressedSize := field block 20 4
      uncompressedSize := field block 24 4
      offset := field block 42 4 }
  let record ← record.readExtra extra extraLength
  if record.method = strongMethod && !record.isStrong then none
  some ({ record with offset := record.offset + shift },
    position + 46 + nameLength + extraLength + commentLength)

end Record

end ArchiveBrowser.Zip

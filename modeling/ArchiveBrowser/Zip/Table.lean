import ArchiveBrowser.Deflate.Inflate
import ArchiveBrowser.Fault
import ArchiveBrowser.Zip.EndRecord
import ArchiveBrowser.Zip.Record

/-!
# Tables of entries

What a container holds: names, each with the bytes behind it or the reason why they
cannot be had. End records are tried from the end of the container backwards, until
one leads to a directory that can be read.
-/

set_option autoImplicit false

namespace ArchiveBrowser.Zip

inductive EntryFlaw where
  | closed (flaw : Flaw)
  | undecodable (fault : Fault)
  deriving DecidableEq

structure Table where
  names : List String
  contents : (entry : Nat) → Except EntryFlaw Bytes

def localHeaderSize : Nat := 30

def dataStart (container : Container) (offset : Nat) : Except Flaw Nat :=
  match container.block? offset localHeaderSize with
  | none => .error .cutOff
  | some block =>
    if block.take 4 = Signature.localHeader.bytes then
      .ok (offset + localHeaderSize + field block 26 2 + field block 28 2)
    else .error .noLocalHeader

def Record.held (record : Record) (container : Container) : Except Flaw (Bytes × Bool) := do
  if record.isEncrypted then .error .passwordRequired
  let start ← dataStart container record.offset
  if record.method ≠ storedMethod && record.method ≠ deflatedMethod then .error .unsupportedMethod
  if record.isStrong then .error .passwordWrong
  .ok (container.slice start record.compressedSize, record.method = deflatedMethod)

def Record.contents (record : Record) (container : Container) : Except EntryFlaw Bytes := do
  let (held, isCompressed) ← (record.held container).mapError .closed
  let bytes ←
    if isCompressed then
      (Deflate.inflate held).mapError fun _ => .undecodable .deflateCorrupt
    else .ok held
  if (Digest.Crc32.compute bytes).toNat = record.checksum then .ok bytes
  else .error (.undecodable .checksumMismatch)

/-- Reads `count` records from `position` on. Every entry has to lie before the
directory. -/
def readRecords (container : Container) (place : DirectoryPlace) (position : Nat) :
    (count : Nat) → Option (List Record)
  | 0 => some []
  | count + 1 => do
    let (record, next) ← Record.read? container place.shift position
    if place.start ≤ record.offset then none
    let others ← readRecords container place next count
    some (record :: others)

/-- Adds a record to those before it; one of the same name gives way to it. -/
def addRecord (records : List Record) (record : Record) : List Record :=
  match records with
  | [] => [record]
  | first :: rest => if first.name = record.name then record :: rest else first :: addRecord rest record

def Table.ofRecords (container : Container) (records : List Record) : Table :=
  let kept := (records.foldl addRecord []).toArray
  { names := kept.toList.map Record.name
    contents := fun entry =>
      match kept[entry]? with
      | none => .error (.closed .cutOff)
      | some record => record.contents container }

/-- The records of the first end record of `positions` that leads to a directory. `last`
is the flaw to report if there is none; a directory that cannot be read makes it
forgotten, and an end record that is not all there does not replace it. -/
def findRecords (container : Container) (last : Option Flaw) :
    (positions : List Nat) → Except Flaw (List Record)
  | [] => .error (last.getD .noEndRecord)
  | position :: rest =>
    match EndRecord.read container position with
    | .unreadable flaw => findRecords container (last <|> some flaw) rest
    | .refused flaw => findRecords container (some flaw) rest
    | .place none => findRecords container none rest
    | .place (some place) =>
      match readRecords container place place.start place.count with
      | none => findRecords container none rest
      | some records => .ok records

def Table.read (container : Container) : Except Flaw Table :=
  let positions := (container.positions .endRecord 0 container.size).reverse
  (findRecords container none positions).map (.ofRecords container)

end ArchiveBrowser.Zip

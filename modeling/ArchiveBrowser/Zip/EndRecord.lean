import ArchiveBrowser.Zip.Container
import ArchiveBrowser.Zip.Flaw

/-!
# End records

The directory of a container is found from its end: an end record says where the
directory starts and how many entries it has. If a number does not fit there, a
locator before it leads to an end record with wide numbers. Where junk precedes the
container, the structures lie further on than they say, and the difference is the
same for all of them.
-/

set_option autoImplicit false

namespace ArchiveBrowser.Zip

structure DirectoryPlace where
  /-- What has to be added to every position that the container names. -/
  shift : Nat
  start : Nat
  count : Nat

inductive EndRecord where
  | place (directory : Option DirectoryPlace)
  | refused (flaw : Flaw)
  | unreadable (flaw : Flaw)

namespace EndRecord

def size : Nat := 22

def locatorSize : Nat := 20

def wideSize : Nat := 56

def directoryRecordSize : Nat := 46

def onOneDisk (disk directoryDisk : Nat) (directory : DirectoryPlace) : EndRecord :=
  .place (if disk = directoryDisk then some directory else none)

def readNarrow (container : Container) (position : Nat) (block : Bytes) : EndRecord :=
  let disk := field block 4 2
  let directoryDisk := field block 6 2
  let countHere := field block 8 2
  let count := field block 10 2
  let offset := field block 16 4
  let found (shift : Nat) : EndRecord :=
    onOneDisk disk directoryDisk { shift, start := offset + shift, count := countHere }
  if count = 0 then found (position - offset)
  else if position ≤ offset then .refused .directoryAfterEnd
  else
    match (container.positions .directoryRecord offset position).head? with
    | none => .refused .noDirectory
    | some start => found (start - offset)

def readWideAt (container : Container) (locator directoryDisk offset position : Nat) :
    Except Flaw EndRecord :=
  match container.block? position wideSize with
  | none => .error .cutOff
  | some block =>
    let recordSize := field block 4 8
    let madeBy := field block 12 2
    let needed := field block 14 2
    let disk := field block 16 4
    let diskOfDirectory := field block 20 4
    let countHere := field block 24 8
    let count := field block 32 8
    let directoryOffset := field block 48 8
    let shift := position - offset
    if recordSize < 44 then .error .wideEndTooShort
    else if locator - position < recordSize + 12 then .error .wideEndTooLong
    else if diskOfDirectory ≠ directoryDisk then .error .wideEndDiskMismatch
    else if recordSize + 12 ≠ locator - position then .error .wideEndLengthMismatch
    else if position < directoryRecordSize * count + directoryOffset then
      .error .wideEndCountMismatch
    else if count < countHere || madeBy < needed then .ok (.place none)
    else
      .ok (onOneDisk disk diskOfDirectory { shift, start := directoryOffset + shift, count })

/-- The first of `positions` where a wide end record can be read, or else the last
flaw. -/
def readFirstWide (container : Container) (locator directoryDisk offset : Nat) (flaw : Flaw) :
    (positions : List Nat) → EndRecord
  | [] => .refused flaw
  | position :: rest =>
    match readWideAt container locator directoryDisk offset position with
    | .ok read => read
    | .error flaw => readFirstWide container locator directoryDisk offset flaw rest

def readWide (container : Container) (position : Nat) (block : Bytes) : EndRecord :=
  let directoryDisk := field block 4 4
  let offset := field block 8 8
  let disks := field block 16 4
  if position ≤ offset then .refused .wideEndAfterLocator
  else if 1 < disks then .refused .multipleDisks
  else
    readFirstWide container position directoryDisk offset .noWideEnd
      (container.positions .wideEnd offset position)

def locator? (container : Container) (position : Nat) : Option Bytes :=
  if position < locatorSize then none
  else if container.signedAt .wideEndLocator (position - locatorSize) then
    container.block? (position - locatorSize) locatorSize
  else none

def read (container : Container) (position : Nat) : EndRecord :=
  match container.block? position size with
  | none => .unreadable .cutOff
  | some block =>
    if container.size < position + size + field block 20 2 then .unreadable .commentTooLong
    else if field block 10 2 = 0xffff || field block 16 4 = 0xffffffff then
      match locator? container position with
      | none => readNarrow container position block
      | some locator => readWide container (position - locatorSize) locator
    else readNarrow container position block

end EndRecord

end ArchiveBrowser.Zip

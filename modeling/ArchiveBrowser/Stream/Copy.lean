import ArchiveBrowser.Digest.Algorithm
import ArchiveBrowser.Stream.Outlet
import ArchiveBrowser.Stream.Source

/-!
# Copying a source

`copy` moves a source to an outlet, one buffer at a time, up to the end of file, and
flushes the outlet once at the end. Reading everything into memory and digesting a
source are copies into the outlet in question.
-/

set_option autoImplicit false

namespace ArchiveBrowser.Source

def bufferSize : Nat := 8192

structure Copied (σ : Type) where
  outcome : Except Fault Nat
  source : Source
  outlet : σ

variable {σ : Type} [Outlet σ]

def copyFrom (source : Source) (outlet : σ) (total : Nat) : Copied σ :=
  match _ : source.next bufferSize with
  | (.endOfFile, rest) =>
    let (flushed, outlet) := Outlet.flush outlet
    { outcome := flushed.map fun _ => total, source := rest, outlet }
  | (.failed fault, rest) => { outcome := .error fault, source := rest, outlet }
  | (.data bytes, rest) =>
    match Outlet.put outlet bytes with
    | (.ok _, outlet) => copyFrom rest outlet (total + bytes.length)
    | (.error fault, outlet) => { outcome := .error fault, source := rest, outlet }
termination_by source.weight
decreasing_by exact weight_lt_of_next_data (show bufferSize ≠ 0 by decide) ‹_›

def copy (source : Source) (outlet : σ) : Copied σ :=
  source.copyFrom outlet 0

def readAll (source : Source) : Except Fault Bytes × Source :=
  let copied := source.copy Buffer.empty
  (copied.outcome.map fun _ => copied.outlet.bytes, copied.source)

def copyThrough {α : Type} (source : Source) (outlet : σ) (result : σ → α) :
    Except Fault α × Source :=
  let copied := source.copy outlet
  (copied.outcome.map fun _ => result copied.outlet, copied.source)

def digest (source : Source) : Digest.Algorithm → Except Fault String × Source
  | .crc32 => source.copyThrough Digest.Crc32.initial fun crc => crc.result.hex
  | .md5 => source.copyThrough (Digest.Running.start Digest.Md5.scheme) (·.finish.hex)
  | .sha256 => source.copyThrough (Digest.Running.start Digest.Sha256.scheme) (·.finish.hex)

end ArchiveBrowser.Source

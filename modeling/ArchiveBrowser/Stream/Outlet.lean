import ArchiveBrowser.Bytes
import ArchiveBrowser.Fault
import ArchiveBrowser.Digest.Chained
import ArchiveBrowser.Digest.Crc32

/-!
# Outlets

What bytes can be copied into: memory, a running digest, or an output that may
fail. Memory and digests take everything.
-/

set_option autoImplicit false

namespace ArchiveBrowser

class Outlet (σ : Type) where
  /-- Takes in all of the bytes, or fails somewhere among them. -/
  put : σ → Bytes → Except Fault Unit × σ
  flush : σ → Except Fault Unit × σ

/-- Bytes in memory, in the pieces in which they came, latest first. -/
structure Buffer where
  pieces : List Bytes

namespace Buffer

def empty : Buffer := ⟨[]⟩

def bytes (buffer : Buffer) : Bytes :=
  buffer.pieces.reverse.flatten

@[simp] theorem bytes_empty : empty.bytes = [] := rfl

@[simp] theorem bytes_cons (buffer : Buffer) (piece : Bytes) :
    (Buffer.mk (piece :: buffer.pieces)).bytes = buffer.bytes ++ piece := by
  simp [bytes]

instance : Outlet Buffer where
  put buffer piece := (.ok (), ⟨piece :: buffer.pieces⟩)
  flush buffer := (.ok (), buffer)

end Buffer

instance : Outlet Digest.Crc32 where
  put crc bytes := (.ok (), crc.update bytes)
  flush crc := (.ok (), crc)

structure Digest.Running (Chain : Type) where
  scheme : Digest.Scheme Chain
  hasher : Digest.Hasher Chain

namespace Digest.Running

variable {Chain : Type}

def start (scheme : Scheme Chain) : Running Chain :=
  { scheme, hasher := scheme.start }

def finish (running : Running Chain) : Bytes :=
  running.scheme.finish running.hasher

instance : Outlet (Running Chain) where
  put running bytes :=
    (.ok (), { running with hasher := running.scheme.update running.hasher bytes })
  flush running := (.ok (), running)

end Digest.Running

end ArchiveBrowser

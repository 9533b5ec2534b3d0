/-!
# Flaws of ZIP containers

Why a container, or one entry of it, cannot be opened.
-/

set_option autoImplicit false

namespace ArchiveBrowser.Zip

inductive Flaw where
  | cutOff
  | noEndRecord
  | commentTooLong
  | directoryAfterEnd
  | noDirectory
  | wideEndAfterLocator
  | multipleDisks
  | wideEndTooShort
  | wideEndTooLong
  | wideEndDiskMismatch
  | wideEndLengthMismatch
  | wideEndCountMismatch
  | noWideEnd
  | noLocalHeader
  | unsupportedMethod
  | passwordRequired
  | passwordWrong
  deriving DecidableEq

def invalid (reason : String) : String :=
  s!"invalid Zip archive: {reason}"

def unsupported (reason : String) : String :=
  s!"unsupported Zip archive: {reason}"

def Flaw.message : Flaw → String
  | cutOff => "i/o error"
  | noEndRecord => invalid "Could not find EOCD"
  | commentTooLong => invalid "EOCD comment exceeds file boundary"
  | directoryAfterEnd => invalid "Invalid CDFH offset in EOCD"
  | noDirectory => invalid "No CDFH found"
  | wideEndAfterLocator => invalid "Invalid EOCD64 Locator CD offset"
  | multipleDisks => invalid "Multi-disk ZIP files are not supported"
  | wideEndTooShort => invalid "Low EOCD64 record size"
  | wideEndTooLong => invalid "EOCD64 extends beyond EOCD64 locator"
  | wideEndDiskMismatch => invalid "Invalid EOCD64: inconsistency with Locator data"
  | wideEndLengthMismatch => invalid "Invalid EOCD64: inconsistent length"
  | wideEndCountMismatch => invalid "Invalid EOCD64: inconsistent number of files"
  | noWideEnd => invalid "Could not find EOCD64"
  | noLocalHeader => invalid "Invalid local file header"
  | unsupportedMethod => unsupported "Compression method not supported"
  | passwordRequired => unsupported "Password required to decrypt file"
  | passwordWrong => "provided password for encrypted file is incorrect"

end ArchiveBrowser.Zip

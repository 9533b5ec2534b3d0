/-!
# Input and output faults

What can go wrong below the archives: a refusal of the file system, an output that
takes no more bytes, or a fault that a stream reports in words of its own.
-/

set_option autoImplicit false

namespace ArchiveBrowser

inductive OsError where
  | notFound
  | alreadyExists
  | notADirectory
  | isADirectory
  | nameTooLong
  | tooManyLinks
  | unexpectedNul
  | permissionDenied
  | noSuchDevice
  /-- Any other refusal, in the words of the system. -/
  | other (text : String)
  deriving DecidableEq

def OsError.message : OsError → String
  | .notFound => "No such file or directory (os error 2)"
  | .alreadyExists => "File exists (os error 17)"
  | .notADirectory => "Not a directory (os error 20)"
  | .isADirectory => "Is a directory (os error 21)"
  | .nameTooLong => "File name too long (os error 36)"
  | .tooManyLinks => "Too many levels of symbolic links (os error 40)"
  | .unexpectedNul => "file name contained an unexpected NUL byte"
  | .permissionDenied => "Permission denied (os error 13)"
  | .noSuchDevice => "No such device or address (os error 6)"
  | .other text => text

inductive Fault where
  | system (error : OsError)
  /-- A copy met an output that accepted no bytes. -/
  | sinkStalled
  /-- A line of output met an output that accepted no bytes. -/
  | bufferUnwritten
  | sinkFull
  | deflateCorrupt
  | checksumMismatch
  | reported (text : String)
  deriving DecidableEq

def Fault.message : Fault → String
  | .system error => error.message
  | .sinkStalled => "sink accepted no bytes"
  | .bufferUnwritten => "failed to write whole buffer"
  | .sinkFull => "sink full"
  | .deflateCorrupt => "corrupt deflate stream"
  | .checksumMismatch => "Invalid checksum"
  | .reported text => text

end ArchiveBrowser

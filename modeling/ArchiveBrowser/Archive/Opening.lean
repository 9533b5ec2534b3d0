import ArchiveBrowser.Archive.Directory
import ArchiveBrowser.Archive.Uri
import ArchiveBrowser.Archive.Zip

/-!
# Opening archives

From a URI, whose scheme tells the kind, or from a bare path, where a directory is
told from a ZIP file by the first bytes.
-/

set_option autoImplicit false

namespace ArchiveBrowser.Archive

open Log

def zipMagics : List Bytes :=
  [Zip.Signature.localHeader.bytes, Zip.Signature.endRecord.bytes, Zip.Signature.spanned.bytes]

def isZipMagic (bytes : Bytes) : Bool :=
  zipMagics.any (·.isPrefixOf bytes)

def ofDirectory (system : FileSystem) (path : String) : Logged (Except Error Archive) :=
  (DirectoryArchive.atRoot system path).map fun directory => .ok directory.toArchive

def ofZipFile (system : FileSystem) (path : String) : Logged (Except Error Archive) :=
  (ZipArchive.ofFile system path).map fun zip => zip.map ZipArchive.toArchive

def ofZipBytes (bytes : Bytes) : Logged (Except Error Archive) :=
  (ZipArchive.ofBytes ZipArchive.memorySource bytes).map fun zip => zip.map ZipArchive.toArchive

def ofUri (system : FileSystem) (text : String) : Logged (Except Error Archive) :=
  match Uri.parse text with
  | .error error => .quiet (.error error)
  | .ok uri =>
    match uri.kind? with
    | some .directory => ofDirectory system uri.path
    | some .zip => ofZipFile system uri.path
    | none => .quiet (.error (.unsupportedScheme uri.scheme))

def ofPath (system : FileSystem) (path : String) : Logged (Except Error Archive) :=
  if system.isDirectory path then ofDirectory system path
  else
    match system.openFile path with
    | .error error => .quiet (.error (.containerOpenFailed path error.message))
    | .ok source =>
      match (source.readUpTo 4).1 with
      | .error fault => .quiet (.error (.io fault))
      | .ok magic =>
        if isZipMagic magic then ofZipFile system path
        else .quiet (.error (.containerOpenFailed path "unrecognized archive format"))

def ofTarget (system : FileSystem) (target : String) : Logged (Except Error Archive) :=
  if Uri.isMeant target then ofUri system target else ofPath system target

/-- Turns a failure into an absence that is only logged. -/
def orWarn (opened : Logged (Except Error Archive)) (warning : Error → Event) :
    Logged (Option Archive) :=
  match opened.value with
  | .ok archive => { value := some archive, events := opened.events }
  | .error error => { value := none, events := opened.events ++ [warning error] }

def ofUri? (system : FileSystem) (text : String) : Logged (Option Archive) :=
  orWarn (ofUri system text) fun error =>
    .warn "cannot create archive" [("uri", .quoted text), ("error", .plain error.message)]

def ofZipBytes? (bytes : Bytes) : Logged (Option Archive) :=
  orWarn (ofZipBytes bytes) fun error =>
    .warn "cannot create in-memory zip archive" [("error", .plain error.message)]

end ArchiveBrowser.Archive

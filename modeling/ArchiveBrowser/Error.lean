import ArchiveBrowser.Fault
import ArchiveBrowser.Text.Quoted

/-!
# Archive errors

One type covers the whole library: faults of input and output, paths that no
archive may be asked for, and containers that do not open. A path that is merely
missing is not among them; looking it up gives an empty answer.
-/

set_option autoImplicit false

namespace ArchiveBrowser

inductive Error where
  | io (fault : Fault)
  | invalidPath (path : String)
  | pathTraversal (path : String)
  | invalidUri (uri reason : String)
  | unsupportedScheme (scheme : String)
  | containerOpenFailed (source reason : String)
  | notOpen (path : String)
  deriving DecidableEq

namespace Error

def message : Error → String
  | io fault => s!"I/O error: {fault.message}"
  | invalidPath path =>
    s!"Invalid path: {Text.quoted path} (archive paths must start with " ++ "'/')"
  | pathTraversal path => s!"Path traversal detected: {path}"
  | invalidUri uri reason => s!"Invalid URI {Text.quoted uri}: {reason}"
  | unsupportedScheme scheme => s!"Unsupported archive scheme: {scheme}"
  | containerOpenFailed source reason => s!"Failed to open {source}: {reason}"
  | notOpen path => s!"File not open: {path}"

/-- The caller broke a rule on paths, and nothing in the environment is to blame. -/
def isPrecondition : Error → Bool
  | invalidPath _ | pathTraversal _ => true
  | _ => false

end Error

end ArchiveBrowser

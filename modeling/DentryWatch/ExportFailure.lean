import DentryWatch.Disk.Lookup
import DentryWatch.Record.Wire

/-!
# Failures of the exporting side

Why reading records, reports or system files fails.
-/

namespace DentryWatch

inductive ExportFailure where
  /-- Reading or writing failed. -/
  | io (cause : IoFailure)
  | record (cause : RecordError)
  /-- A file does not have the form it should have. -/
  | malformed (path : Path) (detail : String)
deriving DecidableEq, Repr

namespace ExportFailure

def system (code : SystemError) : ExportFailure := .io (.system code)

def message : ExportFailure → String
  | io cause => s!"I/O error: {cause.message}"
  | record cause => s!"Bad trace record: {cause.message}"
  | malformed path detail => s!"Malformed {path.text}: {detail}"

def chain : ExportFailure → List String
  | io cause => [message (io cause), cause.message]
  | record cause => [message (record cause), cause.message]
  | malformed path detail => [message (malformed path detail)]

end ExportFailure

end DentryWatch

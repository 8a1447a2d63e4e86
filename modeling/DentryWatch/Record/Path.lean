import DentryWatch.Record.Basic

/-!
# The path of a record

Components are stored leaf first; the path is written root first. Empty
components and mount roots named `/` are left out.
-/

namespace DentryWatch.Record

def isPathPart (component : Bytes) : Bool := component != [] && component != [0x2F]

def pathParts (record : Record) : List Bytes :=
  (record.components.filter isPathPart).reverse

/-- Joins path parts, with a slash in front when the walk reached the root. -/
def joinPath (rootReached : Bool) (parts : List (List Char)) : List Char :=
  if parts.isEmpty then ['/']
  else (if rootReached then ['/'] else []) ++ ['/'].intercalate parts

def path (record : Record) : String :=
  String.ofList (joinPath record.rootReached (record.pathParts.map Utf8.lossyChars))

end DentryWatch.Record

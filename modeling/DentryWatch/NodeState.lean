import DentryWatch.Disk.Files
import DentryWatch.ExportFailure
import DentryWatch.Text.Blank
import DentryWatch.Text.Lines
import DentryWatch.Text.Numeral

/-!
# Node-wide entry counts

The system reports its counts of directory entries as one line of at least five
numbers between blanks, of which the first, second and fifth are kept. A line
with anything else on it is refused as a whole; later lines do not matter.
-/

namespace DentryWatch

/-- The counts of directory entries on a node. -/
structure NodeState where
  /-- All entries. -/
  total : Int
  /-- Entries nobody uses. -/
  unused : Int
  /-- Entries without an inode. -/
  negative : Int
deriving DecidableEq, Repr

namespace NodeState

def ofFields? : List Int → Option NodeState
  | total :: unused :: _ :: _ :: negative :: _ => some { total, unused, negative }
  | _ => none

/-- Reads the counts from the first line of a text. -/
def parse? (text : List Char) : Option NodeState := do
  let line ← (Text.lines text).head?
  let fields ← (Text.words line).mapM Text.readInt64?
  ofFields? fields

def pathIn (procRoot : Path) : Path := procRoot.child "sys/fs/dentry-state"

def read (disk : Disk) (procRoot : Path) : Except ExportFailure NodeState :=
  match disk.readText (pathIn procRoot) with
  | .error cause => .error (.io cause)
  | .ok text =>
      match parse? text.toList with
      | some state => .ok state
      | none => .error (.malformed (pathIn procRoot) "expected at least five integer fields")

end NodeState

end DentryWatch

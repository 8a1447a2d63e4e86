import DentryWatch.Command.Failure
import DentryWatch.Command.Options
import DentryWatch.RecordStream.Reader
import DentryWatch.TraceLog.Row

/-!
# Printing a file of raw records

Each record is printed on a line of its own, its columns between tabs. The first
record that cannot be read ends the command.
-/

namespace DentryWatch.Command

def decodeSpecs : List OptionSpec := []

/-- A record as it is printed. The path stands as it is. -/
def recordLine (record : Record) : List Char :=
  TraceLog.line
    (Text.decimal record.timestamp.toNat :: TraceLog.columns record record.path.toList)

/-- Prints records until one cannot be read; the first has the given number. -/
def printRecords (file : Path) (index : Nat) :
    List (Except ExportFailure Record) → List Char × Option CommandFailure
  | [] => ([], none)
  | .error cause :: _ => ([], some (.record index file cause))
  | .ok record :: rest =>
      let (text, failure) := printRecords file (index + 1) rest
      (recordLine record ++ text, failure)

def recordsOf (disk : Disk) : Node → List (Except ExportFailure Record)
  | .file inode => RecordReader.items { source := { data := disk.content inode } }
  | .directory _ => [.error (.system .isDirectory)]
  | _ => []

def decodeFile (disk : Disk) (file : Path) : Outcome :=
  match disk.stat file with
  | .error cause => { disk, failure := some (.openFile file cause) }
  | .ok (_, node) =>
      let (text, failure) := printRecords file 0 (recordsOf disk node)
      { disk, output := String.ofList text, failure }

end DentryWatch.Command

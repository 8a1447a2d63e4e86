import DentryWatch.Churn
import DentryWatch.ExportFailure
import DentryWatch.Monitor.Address
import DentryWatch.Replay

/-!
# Failures of commands

Why a command ends early. The text of a failure is followed by those of its
causes.
-/

namespace DentryWatch.Command

inductive CommandFailure where
  /-- The counters are too many for a table: the program stops where it sizes it. -/
  | oversized
  /-- The tree cannot be attached. -/
  | attach (cause : AttachError)
  /-- The trace log cannot be opened. -/
  | traceOutput (dir : Path) (cause : SystemError)
  /-- A file of raw records cannot be created. -/
  | create (path : Path) (cause : SystemError)
  /-- A file of raw records cannot be opened. -/
  | openFile (path : Path) (cause : SystemError)
  /-- A record cannot be read. -/
  | record (index : Nat) (path : Path) (cause : ExportFailure)
  /-- The tree cannot be replayed. -/
  | replay (cause : ReplayFailure)
  /-- The traces cannot be written. -/
  | drain (cause : ExportFailure)
  | mode (name : String)
  /-- The rate or the entries a directory are zero. -/
  | pace
  | prepare (base : Path) (cause : SystemError)
  /-- The churn ended early. -/
  | churn (cause : ChurnFailure)
  | intervals
  /-- The monitor cannot listen. -/
  | listen (address : String) (cause : ListenFailure)
deriving DecidableEq, Repr

namespace CommandFailure

def chain : CommandFailure → List String
  | oversized => ["attempt to add with overflow"]
  | attach cause => "failed to attach replay source" :: cause.chain
  | traceOutput dir cause =>
      s!"cannot open trace output in {dir.text}" :: (ExportFailure.system cause).chain
  | create path cause => [s!"cannot create {path.text}", cause.message]
  | openFile path cause => [s!"cannot open {path.text}", cause.message]
  | record index path cause => s!"record {index} of {path.text}" :: cause.chain
  | replay cause => cause.chain
  | drain cause => cause.chain
  | mode name => [s!"invalid variant: {name}"]
  | pace => ["rate and per-dir must be positive"]
  | prepare base cause => [s!"cannot prepare {base.text}", cause.message]
  | churn cause => cause.chain
  | intervals => ["poll and resolve intervals must be positive"]
  | listen address cause => [s!"cannot listen on {address}", cause.message]

def message (failure : CommandFailure) : String := ": ".intercalate failure.chain

end CommandFailure

structure Outcome where
  disk : Disk
  /-- What it printed. -/
  output : String := ""
  /-- Why it ended early, if it did. -/
  failure : Option CommandFailure := none

end DentryWatch.Command

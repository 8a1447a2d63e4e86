import DentryWatch.Command.Decode
import DentryWatch.Command.Generate
import DentryWatch.Command.Monitor
import DentryWatch.Command.Replay
import DentryWatch.Settings.Document

/-!
# Commands

The commands of the program by name, each with its options.
-/

namespace DentryWatch

open Command

inductive Command where
  /-- Prints a file of raw records. -/
  | decode (file : Path)
  /-- Replays a tree once. -/
  | replay (options : ReplayOptions)
  | monitor (options : MonitorOptions)
  /-- Makes churn. -/
  | generate (options : GenerateOptions)
  /-- Prints the default settings. -/
  | config
deriving DecidableEq, Repr

structure Surroundings where
  disk : Disk
  settings : Settings := {}
  /-- The time. -/
  now : Instant
  /-- How long making churn takes, in tenths of a second. -/
  tenths : Nat := 0

namespace Command

def read (name : String) (words : List String) : Except UsageError Command :=
  match name with
  | "decode" => do return .decode (Path.ofText (← readLine decodeSpecs words).argument)
  | "replay" => do return .replay (.ofLine (← readLine ReplayOptions.specs words))
  | "monitor" => do return .monitor (.ofLine (← readLine MonitorOptions.specs words))
  | "generate" => do return .generate (.ofLine (← readLine GenerateOptions.specs words))
  | "config" => if words.isEmpty then .ok .config else .error .unknownArgument
  | _ => .error .unknownArgument

/-- Runs a command. The monitor's service is left to the caller. -/
def run (around : Surroundings) : Command → Outcome
  | decode file => Command.decodeFile around.disk file
  | replay options => replayTree around.disk around.settings around.now options
  | monitor options => (startMonitor around.disk around.settings around.now options).1
  | generate options =>
      makeChurn around.disk around.settings.generator around.tenths options
  | config => { disk := around.disk, output := ({} : Settings).render }

end Command

end DentryWatch

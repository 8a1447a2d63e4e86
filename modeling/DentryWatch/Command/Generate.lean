import DentryWatch.Command.Failure
import DentryWatch.Command.Options
import DentryWatch.Settings.Basic

/-!
# Making churn

The command prepares a base directory and makes entries below it until there are
enough. What it is not told comes from the settings.
-/

namespace DentryWatch.Command

structure GenerateOptions where
  base : Path
  /-- What kind of entries. -/
  mode : Option ChurnMode := none
  /-- Entries a second. -/
  rate : Option UInt64 := none
  /-- Entries a directory. -/
  perDir : Option UInt64 := none
  /-- Entries in all. -/
  max : Option UInt64 := none
deriving DecidableEq, Repr

namespace GenerateOptions

def specs : List OptionSpec :=
  [⟨"mode", .choice ChurnMode.names⟩, ⟨"rate", .number⟩, ⟨"per-dir", .number⟩, ⟨"max", .number⟩]

def ofLine (line : CommandLine) : GenerateOptions where
  base := Path.ofText line.argument
  mode := (line.text? "mode").bind ChurnMode.ofName?
  rate := line.number? "rate"
  perDir := line.number? "per-dir"
  max := line.number? "max"

end GenerateOptions

def churnHeader (churn : Churn) (rate max : Nat) : String :=
  let limit := if max = 0 then "" else s!", max={max}"
  s!"dentry generator: rate={rate}/s, mode={churn.mode.name}, base={churn.base.text}{limit}\n"

/-- What is printed after the last entry, for a run of so many tenths of a second. -/
def churnFooter (total tenths : Nat) : String :=
  let mean := total * 10 / max tenths 1
  s!"\nStopped: {total} dentries in {tenths / 10}.{tenths % 10}s (avg {mean}/s)\n"

/-- Makes churn. A run that is not stopped takes so many tenths of a second. -/
def makeChurn (disk : Disk) (settings : GeneratorSettings) (tenths : Nat)
    (options : GenerateOptions) : Outcome :=
  match options.mode.or (ChurnMode.ofName? settings.mode) with
  | none => { disk, failure := some (.mode settings.mode) }
  | some mode =>
      let rate := (options.rate.getD settings.rate).toNat
      let perDir := (options.perDir.getD settings.perDir).toNat
      let max := (options.max.getD settings.max).toNat
      if rate = 0 || perDir = 0 then { disk, failure := some .pace }
      else
        match Churn.prepare disk options.base mode perDir with
        | (.error cause, disk) => { disk, failure := some (.prepare options.base cause) }
        | (.ok churn, disk) =>
            let header := churnHeader churn rate max
            match churn.driveAt disk rate max true with
            | (.error cause, _, disk) => { disk, output := header, failure := some (.churn cause) }
            | (.ok (), churn, disk) => { disk, output := header ++ churnFooter churn.total tenths }

end DentryWatch.Command

import DentryWatch.Disk.Files
import DentryWatch.Settings.Basic
import DentryWatch.Toml.Document

/-!
# Settings as a document

Settings are written in TOML, one table a section. Reading takes the default for
what is missing, ignores what it does not know, and refuses a value of the wrong
type. A section may also be a list of its values in order.
-/

namespace DentryWatch

namespace Settings

open Toml (Table Value)

/-- What a section says about its fields, in order. -/
def fieldValues? (names : List String) : Value → Option (List (Option Value))
  | .table _ entries => some (names.map (Table.get? entries))
  | .list values => some ((List.range names.length).map fun i => values[i]?)
  | .tables tables =>
      some ((List.range names.length).map fun i => tables[i]?.map (.table .declared))
  | .moment _ => some (names.map fun _ => none)
  | _ => none

def readNumber? (default : UInt64) : Option Value → Option UInt64
  | none => some default
  | some (.integer value) => if 0 ≤ value then some (UInt64.ofNat value.toNat) else none
  | some _ => none

def readFlag? (default : Bool) : Option Value → Option Bool
  | none => some default
  | some (.boolean value) => some value
  | some _ => none

def readText? (default : String) : Option Value → Option String
  | none => some default
  | some (.text value) => some value
  | some _ => none

def readPath? (default : Path) : Option Value → Option Path
  | none => some default
  | some (.text value) => some (Path.ofText value)
  | some _ => none

def readTexts? (default : List String) : Option Value → Option (List String)
  | none => some default
  | some (.list values) => values.mapM fun
      | .text value => some value
      | _ => none
  | some _ => none

end Settings

open Settings

def ProbeSettings.fieldNames : List String :=
  ["stats_capacity", "ring_buffer_bytes", "trace_enabled"]

def ProbeSettings.ofFields? (base : ProbeSettings) :
    List (Option Toml.Value) → Option ProbeSettings
  | [capacity, bytes, tracing] => do
      some
        { tableCapacity := ← readNumber? base.tableCapacity capacity
          ringBytes := ← readNumber? base.ringBytes bytes
          tracing := ← readFlag? base.tracing tracing }
  | _ => none

def TraceSettings.fieldNames : List String :=
  ["dir", "max_size_mb", "max_files", "patterns", "flush_interval_ms"]

def TraceSettings.ofFields? (base : TraceSettings) :
    List (Option Toml.Value) → Option TraceSettings
  | [dir, size, files, patterns, flush] => do
      some
        { dir := ← readPath? base.dir dir
          maxSizeMb := ← readNumber? base.maxSizeMb size
          maxFiles := ← readNumber? base.maxFiles files
          patterns := ← readTexts? base.patterns patterns
          flushMillis := ← readNumber? base.flushMillis flush }
  | _ => none

def ReportSettings.fieldNames : List String := ["proc_root", "cgroup_root"]

def ReportSettings.ofFields? (base : ReportSettings) :
    List (Option Toml.Value) → Option ReportSettings
  | [procRoot, cgroupRoot] => do
      some
        { procRoot := ← readPath? base.procRoot procRoot
          cgroupRoot := ← readPath? base.cgroupRoot cgroupRoot }
  | _ => none

def GeneratorSettings.fieldNames : List String := ["rate", "per_dir", "mode", "max"]

def GeneratorSettings.ofFields? (base : GeneratorSettings) :
    List (Option Toml.Value) → Option GeneratorSettings
  | [rate, perDir, mode, max] => do
      some
        { rate := ← readNumber? base.rate rate
          perDir := ← readNumber? base.perDir perDir
          mode := ← readText? base.mode mode
          max := ← readNumber? base.max max }
  | _ => none

def MonitorSettings.fieldNames : List String :=
  ["listen", "poll_interval_secs", "resolve_interval_secs", "rescan_interval_secs"]

def MonitorSettings.ofFields? (base : MonitorSettings) :
    List (Option Toml.Value) → Option MonitorSettings
  | [listen, poll, resolve, rescan] => do
      some
        { listen := ← readText? base.listen listen
          pollSeconds := ← readNumber? base.pollSeconds poll
          resolveSeconds := ← readNumber? base.resolveSeconds resolve
          rescanSeconds := ← readNumber? base.rescanSeconds rescan }
  | _ => none

namespace Settings

open Toml (Table Value)

/-- Reads one section; without it the defaults hold. -/
def readSection? {α : Type} (base : α) (names : List String)
    (ofFields? : α → List (Option Value) → Option α) : Option Value → Option α
  | none => some base
  | some value => (fieldValues? names value).bind (ofFields? base)

def ofTable? (table : Table) : Option Settings := do
  some
    { probe := ← readSection? {} ProbeSettings.fieldNames ProbeSettings.ofFields?
        (table.get? "probe")
      trace := ← readSection? {} TraceSettings.fieldNames TraceSettings.ofFields?
        (table.get? "trace")
      report := ← readSection? {} ReportSettings.fieldNames ReportSettings.ofFields?
        (table.get? "report")
      generator := ← readSection? {} GeneratorSettings.fieldNames GeneratorSettings.ofFields?
        (table.get? "generator")
      monitor := ← readSection? {} MonitorSettings.fieldNames MonitorSettings.ofFields?
        (table.get? "monitor") }

def ofText? (text : String) : Option Settings := (Toml.parse text).bind ofTable?

inductive LoadError where
  /-- A file cannot be read. -/
  | io (cause : IoFailure)
  | document
deriving DecidableEq, Repr

def LoadError.message : LoadError → String
  | io cause => s!"IO error: {cause.message}"
  | document => "TOML parse error"

def ofFile? (disk : Disk) (path : Path) : Except LoadError (Option Settings) :=
  if !disk.pathExists path then .ok none
  else
    match disk.readText path with
    | .error cause => .error (.io cause)
    | .ok text =>
        match ofText? text with
        | some settings => .ok (some settings)
        | none => .error .document

/-- Loads the settings of the user, if any, with those of the project over them. -/
def load (disk : Disk) (global : Option Path) (project : Path) : Except LoadError Settings := do
  let lower ← match global with
    | none => .ok {}
    | some path => (ofFile? disk path).map (·.getD {})
  match ← ofFile? disk project with
  | none => .ok lower
  | some upper => .ok (lower.layer upper)

end Settings

inductive SettingValue where
  | number (n : UInt64)
  /-- A truth value. -/
  | flag (b : Bool)
  | text (s : String)
  | texts (elements : List String)
deriving DecidableEq, Repr

namespace Settings

def quoted (text : String) : List Char :=
  '"' :: text.toList.flatMap (fun c =>
    if c = '"' || c = '\\' then ['\\', c]
    else if c = '\n' then ['\\', 'n']
    else if Toml.isPlain c then [c]
    else ['\\', 'u'] ++ (Nat.toDigits 16 c.toNat).leftpad 4 '0') ++ ['"']

/-- A list, its elements on lines of their own. -/
def listed : List (List Char) → List Char
  | [] => ['[', ']']
  | elements =>
      ['[', '\n'] ++ elements.flatMap (fun e => [' ', ' ', ' ', ' '] ++ e ++ [',', '\n']) ++ [']']

end Settings

open Settings in
def SettingValue.written : SettingValue → List Char
  | .number n => Text.decimal n.toNat
  | .flag true => ['t', 'r', 'u', 'e']
  | .flag false => ['f', 'a', 'l', 's', 'e']
  | .text s => quoted s
  | .texts elements => listed (elements.map quoted)

namespace Settings

/-- All fields by section, in the order in which they are written. -/
def sections (settings : Settings) : List (String × List (String × SettingValue)) :=
  [("probe", ProbeSettings.fieldNames.zip
      [.number settings.probe.tableCapacity, .number settings.probe.ringBytes,
       .flag settings.probe.tracing]),
   ("trace", TraceSettings.fieldNames.zip
      [.text settings.trace.dir.text, .number settings.trace.maxSizeMb,
       .number settings.trace.maxFiles, .texts settings.trace.patterns,
       .number settings.trace.flushMillis]),
   ("report", ReportSettings.fieldNames.zip
      [.text settings.report.procRoot.text, .text settings.report.cgroupRoot.text]),
   ("generator", GeneratorSettings.fieldNames.zip
      [.number settings.generator.rate, .number settings.generator.perDir,
       .text settings.generator.mode, .number settings.generator.max]),
   ("monitor", MonitorSettings.fieldNames.zip
      [.text settings.monitor.listen, .number settings.monitor.pollSeconds,
       .number settings.monitor.resolveSeconds, .number settings.monitor.rescanSeconds])]

def sectionText (name : String) (fields : List (String × SettingValue)) : List Char :=
  '[' :: name.toList ++ [']', '\n'] ++
    fields.flatMap fun (key, value) => key.toList ++ [' ', '=', ' '] ++ value.written ++ ['\n']

def render (settings : Settings) : String :=
  String.ofList (['\n'].intercalate (settings.sections.map fun (name, fields) =>
    sectionText name fields))

end Settings

end DentryWatch

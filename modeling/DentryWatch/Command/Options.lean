import DentryWatch.Disk.Lookup
import DentryWatch.Text.Numeral

/-!
# Options on the command line

A command takes one argument and options by name, each at most once: flags alone,
the others with a value, in the next word or after `=`. After `--` every word is
an argument. A value is judged when the word after it has been read, so that a
word that is no option at all is refused before the value in front of it.
-/

namespace DentryWatch.Command

inductive OptionKind where
  /-- Nothing. -/
  | flag
  | number
  | text
  | path
  | choice (words : List String)
deriving DecidableEq, Repr

structure OptionSpec where
  name : String
  /-- What it takes. -/
  kind : OptionKind
deriving DecidableEq, Repr

inductive UsageError where
  | missingArgument
  /-- A word is no option, or an argument too many. -/
  | unknownArgument
  | invalidNumber
  /-- A value is missing, empty or none of the choices. -/
  | invalidValue
  /-- An option is given twice. -/
  | repeated
  /-- A flag is given a value. -/
  | surplusValue
  | help
deriving DecidableEq, Repr

/-- A command line: its argument and its options with their values. -/
structure CommandLine where
  argument : String
  /-- The options, with the values of those that take one. -/
  options : List (String × String)
deriving DecidableEq, Repr

namespace CommandLine

def text? (line : CommandLine) (name : String) : Option String := line.options.lookup name

def flag (line : CommandLine) (name : String) : Bool := (line.text? name).isSome

def number? (line : CommandLine) (name : String) : Option UInt64 :=
  (line.text? name).bind fun text => Text.readWord64? text.toList

def path? (line : CommandLine) (name : String) : Option Path := (line.text? name).map Path.ofText

end CommandLine

/-- A word, or an option that waits for its value, that is still to be judged. -/
inductive Pending where
  | argument (word : String)
  /-- An option with the value read so far. -/
  | option (spec : OptionSpec) (word : Option String)
deriving DecidableEq, Repr

structure Reading where
  /-- The argument, once it is judged. -/
  argument : Option String := none
  options : List (String × String) := []
  /-- What is still to be judged. -/
  pending : Option Pending := none
  /-- Whether the place of the argument is taken. -/
  placed : Bool := false
  /-- Whether only arguments follow. -/
  trailing : Bool := false
deriving DecidableEq, Repr

namespace Reading

def refusal? (kind : OptionKind) (value : String) : Option UsageError :=
  match kind with
  | .flag | .text => none
  | .number => if (Text.readWord64? value.toList).isSome then none else some .invalidNumber
  | .path => if value.isEmpty then some .invalidValue else none
  | .choice words => if value ∈ words then none else some .invalidValue

def accept (reading : Reading) (spec : OptionSpec) (value : String) :
    Except UsageError Reading :=
  if (reading.options.lookup spec.name).isSome then .error .repeated
  else
    match refusal? spec.kind value with
    | some cause => .error cause
    | none => .ok { reading with options := reading.options ++ [(spec.name, value)] }

def settle (reading : Reading) : Except UsageError Reading :=
  let settled := { reading with pending := none }
  match reading.pending with
  | none => .ok settled
  | some (.argument word) =>
      if word.isEmpty then .error .invalidValue else .ok { settled with argument := some word }
  | some (.option _ none) => .error .invalidValue
  | some (.option spec (some value)) => settled.accept spec value

def takeArgument (reading : Reading) (word : String) : Except UsageError Reading := do
  if reading.placed then throw .unknownArgument
  let reading ← reading.settle
  return { reading with pending := some (.argument word), placed := true }

def takeOption (specs : List OptionSpec) (reading : Reading) (word : List Char) :
    Except UsageError Reading :=
  let (name, tail) := word.span (· ≠ '=')
  let value := if tail.isEmpty then none else some (String.ofList (tail.drop 1))
  match (⟨"help", .flag⟩ :: specs).find? fun spec => spec.name.toList = name with
  | none => .error .unknownArgument
  | some spec =>
      match decide (spec.kind = .flag), value with
      | true, some _ => .error .surplusValue
      | true, none => do
          let reading ← reading.settle
          if spec.name = "help" then throw .help
          reading.accept spec ""
      | false, some value => do (← reading.settle).accept spec value
      | false, none => do
          return { (← reading.settle) with pending := some (.option spec none) }

def take (specs : List OptionSpec) (reading : Reading) (word : String) :
    Except UsageError Reading :=
  if reading.trailing then reading.takeArgument word
  else
    match word.toList with
    | ['-', '-'] => .ok { reading with trailing := true }
    | '-' :: '-' :: name => reading.takeOption specs name
    | '-' :: 'h' :: _ => reading.takeOption specs ['h', 'e', 'l', 'p']
    | '-' :: _ :: _ => .error .unknownArgument
    | _ =>
        match reading.pending with
        | some (.option spec none) => .ok { reading with pending := some (.option spec (some word)) }
        | _ => reading.takeArgument word

end Reading

def readLine (specs : List OptionSpec) (words : List String) : Except UsageError CommandLine := do
  let reading ← words.foldlM (Reading.take specs) {}
  let reading ← reading.settle
  match reading.argument with
  | some argument => return { argument, options := reading.options }
  | none => throw .missingArgument

end DentryWatch.Command

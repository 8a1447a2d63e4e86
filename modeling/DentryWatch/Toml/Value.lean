/-!
# TOML values

A value is a scalar, a list or a table. How a table came to be decides what may
still be added to it, so each table keeps its standing: the operations below
refuse a key that is set twice, a table that is declared twice, and any addition
to a list or table that its brackets have closed.
-/

namespace DentryWatch.Toml

/-- How a table came to be. -/
inductive Standing where
  /-- Written in braces; nothing can be added. -/
  | closed
  /-- Under a header of its own. -/
  | declared
  /-- Passed by the header of a table below it. -/
  | passed
  /-- Passed by a dotted key. -/
  | dotted
deriving DecidableEq, Repr

inductive Value where
  | text (value : String)
  /-- A whole number. -/
  | integer (value : Int)
  | boolean (value : Bool)
  /-- A floating-point number, as written. -/
  | real (written : List Char)
  /-- A date, a time or both, as written. -/
  | moment (written : List Char)
  | list (elements : List Value)
  | table (standing : Standing) (entries : List (String × Value))
  /-- A list of tables, each under a header of its own. -/
  | tables (elements : List (List (String × Value)))

/-- The entries of a table, keys unique. -/
abbrev Table := List (String × Value)

namespace Table

def get? (table : Table) (key : String) : Option Value := table.lookup key

def put (key : String) (value : Value) : Table → Table
  | [] => [(key, value)]
  | (other, old) :: rest =>
      if other = key then (key, value) :: rest else (other, old) :: put key value rest

/-- Sets a key to what a step that may refuse makes of its value. -/
def alter (table : Table) (key : String) (step : Option Value → Option Value) : Option Table :=
  (step (table.get? key)).map fun value => table.put key value

def changeLast (change : Table → Option Table) (elements : List Table) : Option Value := do
  let last ← elements.getLast?
  let last ← change last
  some (.tables (elements.dropLast ++ [last]))

/-- Changes the table that a header's path leads to; missing tables on the way are made. -/
def within (change : Table → Option Table) : List String → Table → Option Table
  | [], table => change table
  | key :: path, table =>
      table.alter key fun
        | none => (within change path []).map (.table .passed)
        | some (.table .closed _) => none
        | some (.table standing entries) => (within change path entries).map (.table standing)
        | some (.tables elements) => changeLast (within change path) elements
        | some _ => none

def declare (path : List String) (table : Table) : Option Table := do
  let key ← path.getLast?
  table.within (·.alter key fun
    | none => some (.table .declared [])
    | some (.table .passed entries) => some (.table .declared entries)
    | some _ => none) path.dropLast

def extend (path : List String) (table : Table) : Option Table := do
  let key ← path.getLast?
  table.within (·.alter key fun
    | none => some (.tables [[]])
    | some (.tables elements) => some (.tables (elements ++ [[]]))
    | some _ => none) path.dropLast

/--
Sets a dotted key. Its tables must come from dotted keys; a table that a header
has passed may stand before the last of them.
-/
def assign (value : Value) : List String → Table → Option Table
  | [], _ => none
  | [key], table =>
      table.alter key fun
        | none => some value
        | some _ => none
  | part :: path, table =>
      table.alter part fun
        | none => (assign value path []).map (.table .dotted)
        | some (.table .dotted entries) => (assign value path entries).map (.table .dotted)
        | some (.table .passed entries) =>
            if path.length ≤ 1 then none else (assign value path entries).map (.table .passed)
        | some (.tables elements) =>
            if path.length ≤ 1 then none else changeLast (assign value path) elements
        | some _ => none

end Table

end DentryWatch.Toml

import DentryWatch.Toml.Scalar

/-!
# Reading TOML statements

A document is a sequence of lines. A line opens a table, opens a table in a list
of tables, sets a dotted key, or is blank; a comment may end each. Lists may run
over several lines, tables in braces may not. Brackets nest at most `maxDepth`
deep, and a key has at most that many parts.
-/

namespace DentryWatch.Toml

inductive Statement where
  /-- A dotted key is set in the open table. -/
  | assign (path : List String) (value : Value)
  /-- The table with this path is opened. -/
  | declare (path : List String)
  | append (path : List String)

/-- How deep brackets may nest, and how many parts a key may have. -/
def maxDepth : Nat := 79

def skipSpace (s : List Char) : List Char := s.dropWhile isSpace

/-- The characters of keys without quotes. -/
def isKeyChar (c : Char) : Bool := c.isAlphanum || c = '_' || c = '-'

def readKeyPart (s : List Char) : Option (String × List Char) :=
  match s with
  | '"' :: rest => (readBasic rest).map fun (text, rest) => (String.ofList text, rest)
  | '\'' :: rest => (readLiteral rest).map fun (text, rest) => (String.ofList text, rest)
  | _ =>
      let (part, rest) := s.span isKeyChar
      if part.isEmpty then none else some (String.ofList part, rest)

/-- Reads the parts of a dotted key, and the blanks around them. -/
def readParts (s : List Char) : Option (List String × List Char) := do
  let (part, rest) ← readKeyPart (skipSpace s)
  match skipSpace rest with
  | '.' :: more =>
      if more.length < s.length then
        let (parts, rest) ← readParts more
        some (part :: parts, rest)
      else none
  | rest => some ([part], rest)
termination_by s.length

def readKey (s : List Char) : Option (List String × List Char) :=
  (readParts s).filter fun (parts, _) => parts.length ≤ maxDepth

/-- Drops blanks, line breaks and comments that a line break ends. -/
def skipLines (s : List Char) : List Char :=
  match skipBlank s with
  | '#' :: rest =>
      match afterBreak? (rest.dropWhile isPlain) with
      | some after => if after.length < s.length then skipLines after else '#' :: rest
      | none => '#' :: rest
  | rest => rest
termination_by s.length

/-- Reads the elements of a list, with its end, from after its start or a comma. -/
def readElements (read : List Char → Option (Value × List Char)) (s : List Char) :
    Option (List Value × List Char) :=
  match skipLines s with
  | ']' :: rest => some ([], rest)
  | start => do
      let (value, rest) ← read start
      match skipLines rest with
      | ']' :: rest => some ([value], rest)
      | ',' :: rest =>
          if rest.length < s.length then
            let (values, rest) ← readElements read rest
            some (value :: values, rest)
          else none
      | _ => none
termination_by s.length

/-- Reads a key, the mark after it and its value. -/
def readEntry (read : List Char → Option (Value × List Char)) (s : List Char) :
    Option ((List String × Value) × List Char) := do
  let (path, rest) ← readKey s
  let rest ← expect? '=' rest
  let (value, rest) ← read (skipSpace rest)
  some ((path, value), rest)

/-- Reads the entries of a table in braces, with its end, from before a key. -/
def readEntries (read : List Char → Option (Value × List Char)) (table : Table) (s : List Char) :
    Option (Table × List Char) := do
  let ((path, value), rest) ← readEntry read s
  let table ← table.assign value path
  match skipSpace rest with
  | '}' :: rest => some (table, rest)
  | ',' :: rest => if rest.length < s.length then readEntries read table rest else none
  | _ => none
termination_by s.length

def readScalar (s : List Char) : Option (Value × List Char) :=
  if s.head? = some '"' || s.head? = some '\'' then
    (readQuoted s).map fun (text, rest) => (.text (String.ofList text), rest)
  else readBare s

/-- Reads a value whose brackets nest at most that deep. -/
def readValue : Nat → List Char → Option (Value × List Char)
  | 0, s => readScalar s
  | depth + 1, '[' :: rest =>
      (readElements (readValue depth) rest).map fun (values, rest) => (.list values, rest)
  | depth + 1, '{' :: rest =>
      match skipSpace rest with
      | '}' :: rest => some (.table .closed [], rest)
      | _ => (readEntries (readValue depth) [] rest).map fun (table, rest) =>
          (.table .closed table, rest)
  | _ + 1, s => readScalar s

def readEnd (s : List Char) : Option (List Char) :=
  let rest := match skipSpace s with
    | '#' :: comment => comment.dropWhile isPlain
    | rest => rest
  if rest.isEmpty then some [] else afterBreak? rest

def readStatement (s : List Char) : Option (Option Statement × List Char) :=
  match skipSpace s with
  | '[' :: '[' :: rest => do
      let (path, rest) ← readKey rest
      let rest ← expect? ']' (← expect? ']' rest)
      some (some (.append path), rest)
  | '[' :: rest => do
      let (path, rest) ← readKey rest
      let rest ← expect? ']' rest
      some (some (.declare path), rest)
  | [] => some (none, [])
  | c :: rest =>
      if c = '#' || c = '\n' || c = '\r' then some (none, c :: rest)
      else do
        let ((path, value), rest) ← readEntry (readValue maxDepth) (c :: rest)
        some (some (.assign path value), rest)

def readLines (s : List Char) : Option (List Statement) :=
  if s.isEmpty then some []
  else do
    let (statement, rest) ← readStatement s
    let rest ← readEnd rest
    if rest.length < s.length then
      let statements ← readLines rest
      some (statement.toList ++ statements)
    else none
termination_by s.length

end DentryWatch.Toml

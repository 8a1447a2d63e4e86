import DentryWatch.Text.Numeral

/-!
# JSON documents

Documents of whole numbers, texts, lists and objects, and their written form:
one member a line, indented by two spaces a level, with empty lists and objects
on one line. Only quotes, backslashes and control characters are escaped.
-/

namespace DentryWatch

inductive JsonDoc where
  | number (n : Int)
  | text (s : String)
  | list (items : List JsonDoc)
  | object (members : List (String × JsonDoc))

namespace JsonDoc

def escapeChar (c : Char) : List Char :=
  match c with
  | '"' => ['\\', '"']
  | '\\' => ['\\', '\\']
  | '\x08' => ['\\', 'b']
  | '\x0c' => ['\\', 'f']
  | '\n' => ['\\', 'n']
  | '\r' => ['\\', 'r']
  | '\t' => ['\\', 't']
  | _ =>
      if c.toNat < 0x20 then ['\\', 'u'] ++ (Nat.toDigits 16 c.toNat).leftpad 4 '0' else [c]

def writeText (s : String) : List Char := '"' :: s.toList.flatMap escapeChar ++ ['"']

def writeInt (n : Int) : List Char :=
  if n < 0 then '-' :: Text.decimal n.natAbs else Text.decimal n.natAbs

/-- A line break and the indentation of a level. -/
def newline (level : Nat) : List Char := '\n' :: List.replicate (2 * level) ' '

mutual

/-- The written form of a document at a level of indentation. -/
def write (level : Nat) : JsonDoc → List Char
  | number n => writeInt n
  | text s => writeText s
  | list [] => ['[', ']']
  | list (item :: rest) =>
      '[' :: newline (level + 1) ++ write (level + 1) item ++ writeItems level rest
  | object [] => ['{', '}']
  | object ((name, value) :: rest) =>
      '{' :: newline (level + 1) ++ writeText name ++ [':', ' '] ++ write (level + 1) value ++
        writeMembers level rest

/-- The written form of the remaining items of a list, with its end. -/
def writeItems (level : Nat) : List JsonDoc → List Char
  | [] => newline level ++ [']']
  | item :: rest =>
      ',' :: newline (level + 1) ++ write (level + 1) item ++ writeItems level rest

/-- The written form of the remaining members of an object, with its end. -/
def writeMembers (level : Nat) : List (String × JsonDoc) → List Char
  | [] => newline level ++ ['}']
  | (name, value) :: rest =>
      ',' :: newline (level + 1) ++ writeText name ++ [':', ' '] ++ write (level + 1) value ++
        writeMembers level rest

end

def render (doc : JsonDoc) : String := String.ofList (doc.write 0)

end JsonDoc

end DentryWatch

/-!
# Media types

A media type is a type and a subtype around a slash, with parameters after
semicolons. A subtype may end in a suffix after a plus, which names the format
it is written in. Capitals and small letters are alike.
-/

namespace DentryWatch.MediaType

def isNameChar (c : Char) : Bool :=
  c.isAlphanum || c ∈ "!#$%&'*+-.^_\x60|~".toList

def isQuotedChar (c : Char) : Bool := 0x20 ≤ c.toNat && c.toNat < 0x7F

/-- What follows a value in quotes: blanks, and perhaps a further parameter. -/
def afterQuoted? (s : List Char) : Option (List Char) :=
  match s.dropWhile (· = ' ') with
  | [] => some []
  | c :: rest => if c = ';' then some rest else none

/-- What follows the value of a parameter. In quotes the first character is never the end. -/
def afterValue? (s : List Char) : Option (List Char) :=
  match s with
  | '"' :: first :: quoted =>
      match quoted.dropWhile fun c => isQuotedChar c && c ≠ '"' with
      | '"' :: rest => if isQuotedChar first then afterQuoted? rest else none
      | _ => none
  | _ =>
      match s.dropWhile isNameChar with
      | [] => some []
      | c :: rest =>
          if c = ';' && !(s.takeWhile isNameChar).isEmpty then some rest else none

/-- Whether a text is a list of parameters; at most so many are read. -/
def areParameters : Nat → List Char → Bool
  | 0, s => s.isEmpty
  | count + 1, s =>
      let s := s.dropWhile (· = ' ')
      if s.isEmpty then true
      else
        match s.dropWhile isNameChar with
        | '=' :: rest =>
            if (s.takeWhile isNameChar).isEmpty then false
            else
              match afterValue? rest with
              | some rest => areParameters count rest
              | none => false
        | _ => false

/-- The subtype before its last plus, if that is not its first character. -/
def formatNames (subtype : List Char) : List (List Char) :=
  match subtype with
  | [] => [[]]
  | first :: rest =>
      match (rest.reverse.dropWhile (· ≠ '+')).reverse with
      | [] => [subtype]
      | cut => [first :: cut.dropLast, (rest.reverse.takeWhile (· ≠ '+')).reverse]

def isJson (text : String) : Bool :=
  let (kind, tail) := (text.toList.map Char.toLower).span isNameChar
  match tail with
  | '/' :: tail =>
      let (subtype, parameters) := tail.span isNameChar
      let wellFormed :=
        match parameters with
        | [] => true
        | c :: rest => c = ';' && !subtype.isEmpty && areParameters rest.length rest
      wellFormed && kind = "application".toList && "json".toList ∈ formatNames subtype
  | _ => false

example : isJson "application/vnd.x+json; charset=utf-8" = true := by decide

example : isJson "text/json" = false := by decide

end DentryWatch.MediaType

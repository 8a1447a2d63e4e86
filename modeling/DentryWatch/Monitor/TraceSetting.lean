import DentryWatch.Decimal.Word
import DentryWatch.Text.Numeral
import DentryWatch.Text.Utf8

/-!
# Reading the trace setting

The setting is a JSON object with the member `enabled`, a truth value, or a list
of that one value. Other members are skipped. Reading goes from left to right and
stops with the setting, so that text after it does not matter, and the first
fault decides: text that is no JSON, or JSON of another shape.

What is read are bytes. The marks of the notation are ASCII, so each byte is taken
for the character with its number. The bytes of a quoted text have to be UTF-8,
unless the text is skipped.
-/

namespace DentryWatch.TraceSetting

inductive Refusal where
  /-- The text is no JSON. -/
  | malformed
  | shape
deriving DecidableEq, Repr

def skipBlank (s : List Char) : List Char :=
  s.dropWhile fun c => c = ' ' || c = '\n' || c = '\t' || c = '\r'

def wellFormed {α : Type} (read : Option α) : Except Refusal α :=
  match read with
  | some a => .ok a
  | none => .error .malformed

/-- What follows a mark, blanks before it skipped. -/
def expect? (mark : Char) (s : List Char) : Option (List Char) :=
  match skipBlank s with
  | c :: rest => if c = mark then some rest else none
  | [] => none

def readHex? : List Char → Option (Nat × List Char)
  | a :: b :: c :: d :: rest => (Text.readBase? 16 [a, b, c, d]).map (·, rest)
  | _ => none

/-- The character of an escape, read after its backslash, and the rest. Surrogates come in pairs. -/
def readEscape? : List Char → Option (Char × List Char)
  | 'b' :: rest => some ('\x08', rest)
  | 'f' :: rest => some ('\x0c', rest)
  | 'n' :: rest => some ('\n', rest)
  | 'r' :: rest => some ('\r', rest)
  | 't' :: rest => some ('\t', rest)
  | 'u' :: rest => do
      let (high, rest) ← readHex? rest
      if 0xDC00 ≤ high && high < 0xE000 then none
      else if 0xD800 ≤ high && high < 0xDC00 then
        match rest with
        | '\\' :: 'u' :: rest => do
            let (low, rest) ← readHex? rest
            if 0xDC00 ≤ low && low < 0xE000 then
              some (Char.ofNat ((high - 0xD800) * 1024 + (low - 0xDC00) + 0x10000), rest)
            else none
        | _ => none
      else some (Char.ofNat high, rest)
  | c :: rest => if c = '"' || c = '\\' || c = '/' then some (c, rest) else none
  | [] => none

/-- What follows an escape, read after its backslash. Surrogates may stand alone. -/
def skipEscape? : List Char → Option (List Char)
  | 'u' :: rest => (readHex? rest).map Prod.snd
  | c :: rest => if c ∈ ['"', '\\', '/', 'b', 'f', 'n', 'r', 't'] then some rest else none
  | [] => none

/-- The bytes of a text after its opening quote, with the given reader of escapes. -/
def scanText? (escape? : List Char → Option (Char × List Char)) (s : List Char) :
    Option (Bytes × List Char) :=
  match s with
  | [] => none
  | '"' :: rest => some ([], rest)
  | '\\' :: rest => do
      let (c, after) ← escape? rest
      if after.length ≤ rest.length then
        let (text, after) ← scanText? escape? after
        some (Utf8.encodeChars [c] ++ text, after)
      else none
  | c :: rest => do
      if c.toNat < 0x20 then none
      else
        let (text, after) ← scanText? escape? rest
        some (c.toUInt8 :: text, after)
termination_by s.length

def readText? (s : List Char) : Option (String × List Char) := do
  let (bytes, rest) ← scanText? readEscape? s
  (Utf8.decode? bytes).map (·, rest)

/-- What follows a text that is skipped, after its opening quote. -/
def skipText? (s : List Char) : Option (List Char) :=
  (scanText? (fun s => (skipEscape? s).map fun rest => ('?', rest)) s).map Prod.snd

/-- Reads a number without its sign, and the rest. -/
def readNumber? (s : List Char) : Option (Decimal.WordDecimal × List Char) := do
  let s := if s.head? = some '-' then s.drop 1 else s
  let (whole, s) := s.span Char.isDigit
  if whole.isEmpty || (whole.length > 1 && whole.head? = some '0') then none
  else
    let (places, s) ← match s with
      | '.' :: s =>
          let (places, s) := s.span Char.isDigit
          if places.isEmpty then none else some (places, s)
      | _ => some ([], s)
    let (power, s) ← match s with
      | [] => some (0, [])
      | e :: tail =>
          if e = 'e' || e = 'E' then do
            let negative := tail.head? = some '-'
            let tail := if negative || tail.head? = some '+' then tail.drop 1 else tail
            let (power, tail) := tail.span Char.isDigit
            let value : Int := Nat.ofDigitChars 10 power 0
            if power.isEmpty then none else some (if negative then -value else value, tail)
          else some (0, s)
    some (.ofDigits whole places power, s)

def skipWord? (word : String) (s : List Char) : Option (List Char) := word.toList.isPrefixOf? s

def skipScalar? : List Char → Option (List Char)
  | 'n' :: s => skipWord? "ull" s
  | 't' :: s => skipWord? "rue" s
  | 'f' :: s => skipWord? "alse" s
  | '"' :: s => skipText? s
  | s => (readNumber? s).map Prod.snd

inductive Bracket where
  | list
  | object
deriving DecidableEq, Repr

/-- What follows the name of a member and the colon, read from before the name. -/
def skipName? (s : List Char) : Option (List Char) := do
  expect? ':' (← skipText? (← expect? '"' s))

/--
What follows a value that is skipped, with the brackets open around it, innermost
first. The second argument says whether a value is due or what follows one. Each
step reads a character, so the length of the text bounds the steps.
-/
def skipWithin : Nat → Bool → List Bracket → List Char → Option (List Char)
  | 0, _, _, _ => none
  | steps + 1, true, brackets, s =>
      match skipBlank s with
      | '[' :: rest =>
          match expect? ']' rest with
          | some after => skipWithin steps false brackets after
          | none => skipWithin steps true (.list :: brackets) rest
      | '{' :: rest =>
          match expect? '}' rest with
          | some after => skipWithin steps false brackets after
          | none => do skipWithin steps true (.object :: brackets) (← skipName? rest)
      | start => do skipWithin steps false brackets (← skipScalar? start)
  | _ + 1, false, [], s => some s
  | steps + 1, false, bracket :: outer, s =>
      match bracket, skipBlank s with
      | .list, ']' :: rest => skipWithin steps false outer rest
      | .object, '}' :: rest => skipWithin steps false outer rest
      | .list, ',' :: rest => skipWithin steps true (.list :: outer) rest
      | .object, ',' :: rest => do skipWithin steps true (.object :: outer) (← skipName? rest)
      | _, _ => none

def skipValue? (s : List Char) : Option (List Char) := skipWithin (2 * s.length + 2) true [] s

/-- Why a value is refused where another is due. -/
def mismatch (s : List Char) : Refusal :=
  match s with
  | 'n' :: rest => if (skipWord? "ull" rest).isSome then .shape else .malformed
  | 't' :: rest => if (skipWord? "rue" rest).isSome then .shape else .malformed
  | 'f' :: rest => if (skipWord? "alse" rest).isSome then .shape else .malformed
  | '"' :: rest => if (readText? rest).isSome then .shape else .malformed
  | '[' :: _ | '{' :: _ => .shape
  | _ =>
      match readNumber? s with
      | some (number, _) => if number.overflows then .malformed else .shape
      | none => .malformed

def readFlag (s : List Char) : Except Refusal (Bool × List Char) :=
  match skipBlank s with
  | 't' :: rest => do return (true, ← wellFormed (skipWord? "rue" rest))
  | 'f' :: rest => do return (false, ← wellFormed (skipWord? "alse" rest))
  | start => .error (mismatch start)

/-- What follows the opening quote of the next member's name, or nothing at the end. -/
def nextName (first : Bool) (s : List Char) : Except Refusal (Option (List Char)) :=
  match first, skipBlank s with
  | _, '}' :: _ => .ok none
  | true, '"' :: rest => .ok (some rest)
  | false, ',' :: rest => (wellFormed (expect? '"' rest)).map some
  | _, _ => .error .malformed

def readMembers (found : Option Bool) (first : Bool) (s : List Char) : Except Refusal Bool := do
  match ← nextName first s with
  | none =>
      match found with
      | some enabled => .ok enabled
      | none => .error .shape
  | some start =>
      let (name, rest) ← wellFormed (readText? start)
      if name = "enabled" then
        if found.isSome then .error .shape
        else
          let (enabled, rest) ← readFlag (← wellFormed (expect? ':' rest))
          if rest.length < s.length then readMembers (some enabled) false rest
          else .error .malformed
      else
        let rest ← wellFormed (skipValue? (← wellFormed (expect? ':' rest)))
        if rest.length < s.length then readMembers found false rest else .error .malformed
termination_by s.length

def read (body : Bytes) : Except Refusal Bool :=
  match skipBlank (body.map Char.ofUInt8) with
  | '[' :: rest =>
      match skipBlank rest with
      | ']' :: _ => .error .shape
      | start => do
          let (enabled, rest) ← readFlag start
          let _ ← wellFormed (expect? ']' rest)
          return enabled
  | '{' :: rest => readMembers none true rest
  | start => .error (mismatch start)

def write (enabled : Bool) : String :=
  if enabled then "\x7b\"enabled\":true\x7d" else "\x7b\"enabled\":false\x7d"

end DentryWatch.TraceSetting

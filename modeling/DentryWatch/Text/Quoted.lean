import DentryWatch.Text.Printable

/-!
# Quoted text

A text between double quotes, with everything that would not show as itself
written as an escape.
-/

namespace DentryWatch.Text

/-- The escape of a character by its code point in hexadecimal. -/
def pointEscape (c : Char) : List Char :=
  ['\\', 'u', '{'] ++ Nat.toDigits 16 c.toNat ++ ['}']

/-- The written form of one character between double quotes. -/
def quotedChar (c : Char) : List Char :=
  match c with
  | '\x00' => ['\\', '0']
  | '\t' => ['\\', 't']
  | '\r' => ['\\', 'r']
  | '\n' => ['\\', 'n']
  | '\\' => ['\\', '\\']
  | '"' => ['\\', '"']
  | _ => if isExtending c || !isPrintable c then pointEscape c else [c]

def quoted (s : String) : String :=
  String.ofList (['"'] ++ s.toList.flatMap quotedChar ++ ['"'])

end DentryWatch.Text

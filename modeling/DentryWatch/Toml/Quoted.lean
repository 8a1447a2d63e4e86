/-!
# Quoted texts in TOML

A text stands between double quotes, with escapes, or between single quotes,
without. Three quotes instead of one let it run over several lines: a line break
right after them is dropped, every other one becomes a line feed, and up to two
quotes may stand right before the closing three. Control characters other than
the tab have to be escaped.
-/

namespace DentryWatch.Toml

/-- The characters that may stand in a text or comment as they are. -/
def isPlain (c : Char) : Bool := c = '\t' || (0x20 ≤ c.toNat && c.toNat ≠ 0x7F)

def isSpace (c : Char) : Bool := c = ' ' || c = '\t'

def isHexDigit (c : Char) : Bool :=
  c.isDigit || ('a' ≤ c && c ≤ 'f') || ('A' ≤ c && c ≤ 'F')

def digitValue (c : Char) : Nat :=
  if c.isDigit then c.toNat - '0'.toNat
  else if c.isLower then c.toNat - 'a'.toNat + 10
  else c.toNat - 'A'.toNat + 10

def digitsValue (base : Nat) (digits : List Char) : Nat :=
  digits.foldl (fun value c => value * base + digitValue c) 0

/-- The character whose code point that many digits give, and the rest. -/
def readCodePoint (width : Nat) (s : List Char) : Option (Char × List Char) :=
  let digits := s.take width
  let code := digitsValue 16 digits
  if digits.length = width && digits.all isHexDigit &&
      (code < 0xD800 || (0xE000 ≤ code && code < 0x110000)) then
    some (Char.ofNat code, s.drop width)
  else none

/-- The character that an escape stands for, read after its backslash, and the rest. -/
def readEscape : List Char → Option (Char × List Char)
  | 'b' :: rest => some ('\x08', rest)
  | 'f' :: rest => some ('\x0c', rest)
  | 'n' :: rest => some ('\n', rest)
  | 'r' :: rest => some ('\r', rest)
  | 't' :: rest => some ('\t', rest)
  | '"' :: rest => some ('"', rest)
  | '\\' :: rest => some ('\\', rest)
  | 'u' :: rest => readCodePoint 4 rest
  | 'U' :: rest => readCodePoint 8 rest
  | _ => none

theorem readEscape_length {s rest : List Char} {c : Char} (h : readEscape s = some (c, rest)) :
    rest.length ≤ s.length := by
  unfold readEscape at h
  split at h <;> simp_all [readCodePoint] <;> grind

def withFirst (c : Char) (read : Option (List Char × List Char)) :
    Option (List Char × List Char) :=
  read.map fun (text, rest) => (c :: text, rest)

/-- Reads to the closing double quote. -/
def readBasic (s : List Char) : Option (List Char × List Char) :=
  match s with
  | [] => none
  | '"' :: rest => some ([], rest)
  | '\\' :: rest =>
      match _h : readEscape rest with
      | some (c, after) => withFirst c (readBasic after)
      | none => none
  | c :: rest => if isPlain c then withFirst c (readBasic rest) else none
termination_by s.length
decreasing_by
  · have := readEscape_length _h
    simp only [List.length_cons]
    omega
  · simp

def readLiteral : List Char → Option (List Char × List Char)
  | [] => none
  | '\'' :: rest => some ([], rest)
  | c :: rest => if isPlain c then withFirst c (readLiteral rest) else none

def afterBreak? : List Char → Option (List Char)
  | '\n' :: rest => some rest
  | '\r' :: '\n' :: rest => some rest
  | _ => none

def skipBlank : List Char → List Char
  | '\r' :: '\n' :: rest => skipBlank rest
  | c :: rest => if isSpace c || c = '\n' then skipBlank rest else c :: rest
  | [] => []

theorem skipBlank_length (s : List Char) : (skipBlank s).length ≤ s.length := by
  fun_induction skipBlank s <;> simp_all <;> omega

/-- What follows an escaped line break, read after its backslash: all blanks go with it. -/
def afterJoin? (s : List Char) : Option (List Char) :=
  (afterBreak? (s.dropWhile isSpace)).map skipBlank

theorem afterJoin?_length {s rest : List Char} (h : afterJoin? s = some rest) :
    rest.length ≤ s.length := by
  obtain ⟨t, ht, rfl⟩ := Option.map_eq_some_iff.1 h
  have h1 := skipBlank_length t
  have h2 := (List.dropWhile_suffix (l := s) isSpace).length_le
  unfold afterBreak? at ht
  split at ht
  · next heq =>
      obtain rfl := Option.some.inj ht
      have := congrArg List.length heq
      simp only [List.length_cons] at this
      omega
  · next heq =>
      obtain rfl := Option.some.inj ht
      have := congrArg List.length heq
      simp only [List.length_cons] at this
      omega
  · simp at ht

/-- The quotes that belong to a text before its closing three, and what follows those. -/
def readClosing (quote : Char) : List Char → List Char × List Char
  | a :: b :: rest =>
      if a = quote && b = quote then ([quote, quote], rest)
      else if a = quote then ([quote], b :: rest)
      else ([], a :: b :: rest)
  | [a] => if a = quote then ([quote], []) else ([], [a])
  | [] => ([], [])

/-- Reads to the closing three double quotes. -/
def readBasicLines (s : List Char) : Option (List Char × List Char) :=
  match s with
  | [] => none
  | '"' :: '"' :: '"' :: rest => some (readClosing '"' rest)
  | '\\' :: rest =>
      match _hj : afterJoin? rest with
      | some after => readBasicLines after
      | none =>
          match _h : readEscape rest with
          | some (c, after) => withFirst c (readBasicLines after)
          | none => none
  | '\r' :: '\n' :: rest => withFirst '\n' (readBasicLines rest)
  | c :: rest => if isPlain c || c = '\n' then withFirst c (readBasicLines rest) else none
termination_by s.length
decreasing_by
  · have := afterJoin?_length _hj
    simp only [List.length_cons]
    omega
  · have := readEscape_length _h
    simp only [List.length_cons]
    omega
  · simp only [List.length_cons]
    omega
  · simp

def readLiteralLines : List Char → Option (List Char × List Char)
  | [] => none
  | '\'' :: '\'' :: '\'' :: rest => some (readClosing '\'' rest)
  | '\r' :: '\n' :: rest => withFirst '\n' (readLiteralLines rest)
  | c :: rest => if isPlain c || c = '\n' then withFirst c (readLiteralLines rest) else none

def dropBreak (s : List Char) : List Char := (afterBreak? s).getD s

def readQuoted : List Char → Option (List Char × List Char)
  | '"' :: '"' :: '"' :: rest => readBasicLines (dropBreak rest)
  | '"' :: rest => readBasic rest
  | '\'' :: '\'' :: '\'' :: rest => readLiteralLines (dropBreak rest)
  | '\'' :: rest => readLiteral rest
  | _ => none

end DentryWatch.Toml

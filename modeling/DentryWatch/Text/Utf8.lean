import DentryWatch.Bytes

/-!
# UTF-8

Reading cuts a byte string into pieces: a well-formed character, or a maximal
run of bytes that begins one and is then broken off. Lossy reading shows each
broken run as one replacement character; strict reading refuses it.
-/

namespace DentryWatch.Utf8

/-- A piece of a byte string read as UTF-8. -/
inductive Piece where
  /-- A well-formed character. -/
  | char (c : Char)
  /-- A maximal run of bytes that is no character. -/
  | broken
deriving DecidableEq, Repr

def replacement : Char := '\uFFFD'

def Piece.shown : Piece → Char
  | .char c => c
  | .broken => replacement

def Piece.char? : Piece → Option Char
  | .char c => some c
  | .broken => none

def isContinuation (byte : UInt8) : Bool := 0x80 ≤ byte && byte ≤ 0xBF

def payload (byte : UInt8) : Nat := byte.toNat % 64

/-- The second bytes a three-byte lead admits: no overlong form, no surrogate. -/
def admits3 (lead second : UInt8) : Bool :=
  if lead = 0xE0 then 0xA0 ≤ second && second ≤ 0xBF
  else if lead = 0xED then 0x80 ≤ second && second ≤ 0x9F
  else isContinuation second

/-- The second bytes a four-byte lead admits: no overlong form, nothing past `U+10FFFF`. -/
def admits4 (lead second : UInt8) : Bool :=
  if lead = 0xF0 then 0x90 ≤ second && second ≤ 0xBF
  else if lead = 0xF4 then 0x80 ≤ second && second ≤ 0x8F
  else isContinuation second

def piece2 (lead : UInt8) : Bytes → Piece × Bytes
  | [] => (.broken, [])
  | b :: rest =>
      if isContinuation b then
        (.char (Char.ofNat (lead.toNat % 32 * 64 + payload b)), rest)
      else (.broken, b :: rest)

def piece3 (lead : UInt8) : Bytes → Piece × Bytes
  | [] => (.broken, [])
  | b :: rest =>
      if admits3 lead b then
        match rest with
        | [] => (.broken, [])
        | c :: rest =>
            if isContinuation c then
              (.char (Char.ofNat (lead.toNat % 16 * 4096 + payload b * 64 + payload c)), rest)
            else (.broken, c :: rest)
      else (.broken, b :: rest)

def piece4 (lead : UInt8) : Bytes → Piece × Bytes
  | [] => (.broken, [])
  | b :: rest =>
      if admits4 lead b then
        match rest with
        | [] => (.broken, [])
        | c :: rest =>
            if isContinuation c then
              match rest with
              | [] => (.broken, [])
              | d :: rest =>
                  if isContinuation d then
                    (.char (Char.ofNat (lead.toNat % 8 * 262144 + payload b * 4096
                      + payload c * 64 + payload d)), rest)
                  else (.broken, d :: rest)
            else (.broken, c :: rest)
      else (.broken, b :: rest)

/-- The first piece of a byte string that begins with `lead`, and what follows it. -/
def piece (lead : UInt8) (rest : Bytes) : Piece × Bytes :=
  if lead < 0x80 then (.char (Char.ofNat lead.toNat), rest)
  else if 0xC2 ≤ lead && lead ≤ 0xDF then piece2 lead rest
  else if 0xE0 ≤ lead && lead ≤ 0xEF then piece3 lead rest
  else if 0xF0 ≤ lead && lead ≤ 0xF4 then piece4 lead rest
  else (.broken, rest)

theorem piece_rest_length (lead : UInt8) (rest : Bytes) :
    (piece lead rest).2.length ≤ rest.length := by
  unfold piece piece2 piece3 piece4
  repeat' split
  all_goals simp_all <;> omega

def pieces : Bytes → List Piece
  | [] => []
  | lead :: rest => (piece lead rest).1 :: pieces (piece lead rest).2
termination_by bytes => bytes.length
decreasing_by
  have := piece_rest_length lead rest
  simp only [List.length_cons]
  omega

def lossyChars (bytes : Bytes) : List Char := (pieces bytes).map Piece.shown

/-- Reads a byte string as text, with one replacement character for each broken run. -/
def lossy (bytes : Bytes) : String := String.ofList (lossyChars bytes)

/-- Reads a byte string that is well formed throughout. -/
def decode? (bytes : Bytes) : Option String :=
  ((pieces bytes).mapM Piece.char?).map String.ofList

def encodeChars (chars : List Char) : Bytes := chars.flatMap String.utf8EncodeChar

def encode (text : String) : Bytes := encodeChars text.toList

@[simp] theorem encodeChars_nil : encodeChars [] = [] := rfl

@[simp] theorem encodeChars_append (s t : List Char) :
    encodeChars (s ++ t) = encodeChars s ++ encodeChars t := by
  simp [encodeChars]

@[simp] theorem encode_append (s t : String) : encode (s ++ t) = encode s ++ encode t := by
  simp [encode]

@[simp] theorem lossyChars_nil : lossyChars [] = [] := by simp [lossyChars, pieces]

end DentryWatch.Utf8

import DentryWatch.Disk.Failure
import DentryWatch.Text.Numeral

/-!
# Listen addresses

An address is a host and a port around its last colon. A host is a number of
version 4 or 6 of the internet protocol, or a name. One can listen on the machine
itself and on groups of machines, not on other machines; the only name that is
known without a name server is that of the machine itself.
-/

namespace DentryWatch

inductive ListenFailure where
  | invalidAddress
  /-- The port is no 16-bit number. -/
  | invalidPort
  /-- The host is left open and there is no service to choose one by. -/
  | noHost
  /-- The host is no number, and no name server answers. -/
  | unknownHost
  /-- The system refuses the host. -/
  | system (cause : SystemError)
deriving DecidableEq, Repr

def ListenFailure.message : ListenFailure → String
  | invalidAddress => "invalid socket address"
  | invalidPort => "invalid port value"
  | noHost => "failed to lookup address information: Name or service not known"
  | unknownHost => "failed to lookup address information: Temporary failure in name resolution"
  | system cause => cause.message

namespace Address

def split? (address : List Char) : Option (List Char × List Char) :=
  match address.reverse.span (· ≠ ':') with
  | (_, []) => none
  | (port, _ :: host) => some (host.reverse, port.reverse)

/-- A part of a number of version 4: hexadecimal after `0x`, octal after `0`, decimal otherwise. -/
def part4? (s : List Char) : Option Nat :=
  match s with
  | ['0'] => some 0
  | '0' :: 'x' :: digits | '0' :: 'X' :: digits => Text.readBase? 16 digits
  | '0' :: digits => Text.readBase? 8 digits
  | _ => Text.readBase? 10 s

/-- A number of version 4: up to four parts of a byte, the last as wide as what is left. -/
def number4? (s : List Char) : Option Nat := do
  let parts ← (s.splitOn '.').mapM part4?
  let last ← parts.getLast?
  let width := Nat.pow 256 (5 - parts.length)
  if parts.length ≤ 4 && parts.dropLast.all (· < 256) && last < width then
    some (parts.dropLast.foldl (256 * · + ·) 0 * width + last)
  else none

def group6? (s : List Char) : Option Nat :=
  if s.length ≤ 4 then Text.readBase? 16 s else none

/-- Groups between colons. Two may be written as a number of version 4 in four decimal parts. -/
def groups6? (s : List Char) : Option (List Nat) :=
  if s.isEmpty then some []
  else
    let parts := s.splitOn ':'
    match parts.getLast? with
    | none => none
    | some last =>
        if last.contains '.' then do
          let tail ← number4? last
          let dotted := [tail / 16777216 % 256, tail / 65536 % 256, tail / 256 % 256, tail % 256]
          if ['.'].intercalate (dotted.map Text.decimal) = last then
            some ((← parts.dropLast.mapM group6?) ++ [tail / 65536, tail % 65536])
          else none
        else parts.mapM group6?

/-- What stands before and after the first double colon. -/
def gap? : List Char → Option (List Char × List Char)
  | [] => none
  | ':' :: ':' :: rest => some ([], rest)
  | c :: rest => (gap? rest).map fun (before, after) => (c :: before, after)

/-- A number of version 6: eight groups, of which a double colon leaves out some that are zero. -/
def number6? (s : List Char) : Option (List Nat) :=
  match gap? s with
  | none => (groups6? s).filter (·.length = 8)
  | some (before, after) => do
      let head ← groups6? before
      let tail ← groups6? after
      if head.length + tail.length < 8 && !before.contains '.' then
        some (head ++ List.replicate (8 - (head.length + tail.length)) 0 ++ tail)
      else none

def check4 (number : Nat) : Except ListenFailure Unit :=
  let first := number / 16777216
  if number = 0 || first = 127 || (224 ≤ first && first < 240) || number = 4294967295 then .ok ()
  else .error (.system .notLocal)

def check6 (groups : List Nat) : Except ListenFailure Unit :=
  match groups with
  | [0, 0, 0, 0, 0, 0, 0, 0] | [0, 0, 0, 0, 0, 0, 0, 1] => .ok ()
  | [0, 0, 0, 0, 0, 0xFFFF, high, low] => check4 (65536 * high + low)
  | first :: _ =>
      if 0xFF00 ≤ first || first / 64 = 0x3FA then .error (.system .invalid)
      else .error (.system .notLocal)
  | [] => .error .unknownHost

/-- Whether one can listen on a host. In brackets only a number of version 6 is meant. -/
def checkHost (host : List Char) : Except ListenFailure Unit :=
  let inner := (host.drop 1).dropLast
  if host.contains '\x00' then .error (.system .nulInPath)
  else if host = ['*'] then .error .noHost
  else if host = "localhost".toList then .ok ()
  else
    match number4? host, number6? host, number6? inner with
    | some number, _, _ => check4 number
    | none, some groups, _ => check6 groups
    | none, none, some groups =>
        if host = '[' :: inner ++ [']'] then check6 groups else .error .unknownHost
    | none, none, none => .error .unknownHost

/-- Whether one can listen on an address. The port is looked at first. -/
def check (address : String) : Except ListenFailure Unit :=
  match split? address.toList with
  | none => .error .invalidAddress
  | some (host, port) =>
      if (Text.readBelow? UInt16.size port).isNone then .error .invalidPort else checkHost host

end Address

end DentryWatch

/-!
# Failures of file operations

What the system or a stream answers when an operation on a file fails, with the
text shown for it.
-/

namespace DentryWatch

inductive SystemError where
  /-- The path holds a NUL byte, which ends a path for the system. -/
  | nulInPath
  /-- Nothing stands at the path. -/
  | noEntry
  /-- The caller may not do that. -/
  | permission
  /-- Something stands at the path already. -/
  | occupied
  /-- A part of the path is no directory. -/
  | notDirectory
  /-- The path names a directory. -/
  | isDirectory
  /-- The request makes no sense. -/
  | invalid
  /-- The device is full. -/
  | noSpace
  | nameTooLong
  /-- The directory holds entries. -/
  | notEmpty
  /-- Links lead in a circle. -/
  | linkLoop
  /-- An address belongs to another machine. -/
  | notLocal
deriving DecidableEq, Repr

namespace SystemError

def code? : SystemError → Option Nat
  | nulInPath => none
  | noEntry => some 2
  | permission => some 13
  | occupied => some 17
  | notDirectory => some 20
  | isDirectory => some 21
  | invalid => some 22
  | noSpace => some 28
  | nameTooLong => some 36
  | notEmpty => some 39
  | linkLoop => some 40
  | notLocal => some 99

def words : SystemError → String
  | nulInPath => "file name contained an unexpected NUL byte"
  | noEntry => "No such file or directory"
  | permission => "Permission denied"
  | occupied => "File exists"
  | notDirectory => "Not a directory"
  | isDirectory => "Is a directory"
  | invalid => "Invalid argument"
  | noSpace => "No space left on device"
  | nameTooLong => "File name too long"
  | notEmpty => "Directory not empty"
  | linkLoop => "Too many levels of symbolic links"
  | notLocal => "Cannot assign requested address"

/-- The text of a refusal: its words, and the code of the system if there is one. -/
def message (cause : SystemError) : String :=
  match cause.code? with
  | some code => s!"{cause.words} (os error {code})"
  | none => cause.words

end SystemError

inductive IoFailure where
  | system (code : SystemError)
  /-- A text file is not UTF-8. -/
  | notText
  /-- A sink took nothing. -/
  | wroteNothing
  | stream (words : String)
deriving DecidableEq, Repr

def IoFailure.message : IoFailure → String
  | system code => code.message
  | notText => "stream did not contain valid UTF-8"
  | wroteNothing => "failed to write whole buffer"
  | stream words => words

end DentryWatch

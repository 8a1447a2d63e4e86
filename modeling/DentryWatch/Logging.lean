/-!
# Logging

How much is logged, and for which part of the program.
-/

namespace DentryWatch

inductive LogLevel where
  /-- Failures. -/
  | error
  /-- And what may lead to one. -/
  | warn
  /-- And what goes as planned. -/
  | info
  /-- And each step. -/
  | debug
  /-- Everything. -/
  | trace
deriving DecidableEq, Repr

def LogLevel.ofVerbosity : Nat → LogLevel
  | 0 => .info
  | 1 => .debug
  | _ => .trace

inductive LogComponent where
  /-- Counting and tracing. -/
  | probe
  /-- Files and reports. -/
  | exporter
  | commands
deriving DecidableEq, Repr

namespace LogComponent

def name : LogComponent → String
  | probe => "PROBE"
  | exporter => "EXPORT"
  | commands => "CLI"

def all : List LogComponent := [probe, exporter, commands]

end LogComponent

end DentryWatch

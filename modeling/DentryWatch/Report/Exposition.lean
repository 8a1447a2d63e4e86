import DentryWatch.Text.Numeral
import DentryWatch.Text.Utf8

/-!
# Exposition of metrics

Metrics are shown as families of samples: a line of help, a line with the kind,
then the samples, whose labels are sorted by name. Samples are sorted by their
label values, families by name, and a family without samples is left out.
-/

namespace DentryWatch

/-- A sample of a metric: its labels, sorted by name, and its value as shown. -/
structure Sample where
  /-- The label names with their values. -/
  labels : List (String × String)
  value : List Char
deriving DecidableEq, Repr

structure MetricFamily where
  name : String
  /-- What it means. -/
  help : String
  /-- Whether it counts or gauges. -/
  kind : String
  samples : List Sample
deriving DecidableEq, Repr

namespace Exposition

def contentType : String := "text/plain; version=0.0.4"

/-- The order of texts by code points, a text before its extensions. -/
def textLE (a b : String) : Bool := !List.lex b.toList a.toList fun c d => c.toNat < d.toNat

/-- The order of samples by their label values, one after the other. -/
def labelsLE : List (String × String) → List (String × String) → Bool
  | [], _ => true
  | _ :: _, [] => false
  | (_, a) :: as, (_, b) :: bs => if a = b then labelsLE as bs else textLE a b

def escapeChar (c : Char) : List Char :=
  match c with
  | '\\' => ['\\', '\\']
  | '"' => ['\\', '"']
  | '\n' => ['\\', 'n']
  | _ => [c]

def writeLabel (label : String × String) : List Char :=
  label.1.toList ++ ['=', '"'] ++ label.2.toList.flatMap escapeChar ++ ['"']

/-- The labels of a sample; none need no braces. -/
def writeLabels (labels : List (String × String)) : List Char :=
  if labels.isEmpty then [] else '{' :: [','].intercalate (labels.map writeLabel) ++ ['}']

def writeSample (name : String) (sample : Sample) : List Char :=
  name.toList ++ writeLabels sample.labels ++ ' ' :: sample.value ++ ['\n']

/-- The lines of a family, or none without samples. -/
def writeFamily (family : MetricFamily) : List Char :=
  if family.samples.isEmpty then []
  else
    s!"# HELP {family.name} {family.help}\n# TYPE {family.name} {family.kind}\n".toList ++
      (family.samples.mergeSort fun a b => labelsLE a.labels b.labels).flatMap
        (writeSample family.name)

def write (families : List MetricFamily) : String :=
  String.ofList
    ((families.mergeSort fun a b => textLE a.name b.name).flatMap writeFamily)

end Exposition

end DentryWatch

import DentryWatch.Text.Blank
import DentryWatch.Text.Search

/-!
# Path filters

A filter is a list of patterns without blank ends. A path passes if it contains
one of them, or if there is none.
-/

namespace DentryWatch

structure PathFilter where
  /-- The patterns, none of them empty. -/
  patterns : List (List Char) := []
deriving DecidableEq, Repr

namespace PathFilter

/-- The filter of a list of entries, trimmed, without the blank ones. -/
def ofEntries (entries : List (List Char)) : PathFilter where
  patterns := (entries.map Text.trim).filter fun pattern => !pattern.isEmpty

def ofPatterns (patterns : List String) : PathFilter := ofEntries (patterns.map String.toList)

def parse (spec : String) : PathFilter := ofEntries (spec.toList.splitOn ',')

def isEmpty (filter : PathFilter) : Bool := filter.patterns.isEmpty

def accepts (filter : PathFilter) (path : String) : Bool :=
  filter.isEmpty || filter.patterns.any (Text.occursIn · path.toList)

theorem ne_nil_of_mem_ofEntries {entries : List (List Char)} {pattern : List Char}
    (h : pattern ∈ (ofEntries entries).patterns) : pattern ≠ [] := by
  simpa using (List.mem_filter.1 h).2

end PathFilter

end DentryWatch

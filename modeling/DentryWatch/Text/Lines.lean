/-!
# Lines

A line ends at a line feed, which a carriage return may precede; neither
belongs to the line. The last line needs no line feed.
-/

namespace DentryWatch.Text

/-- A terminated line without the carriage return before its line feed. -/
def dropReturn (line : List Char) : List Char :=
  if line.getLast? = some '\r' then line.dropLast else line

def lines (s : List Char) : List (List Char) :=
  let parts := s.splitOn '\n'
  parts.dropLast.map dropReturn ++ parts.getLast?.toList.filter (fun line => !line.isEmpty)

/-- The lines of a text that begin with the given characters, without them. -/
def linesAfter (start : List Char) (s : List Char) : List (List Char) :=
  (lines s).filterMap (start.isPrefixOf? ·)

@[simp] theorem lines_nil : lines [] = [] := rfl

end DentryWatch.Text

import DentryWatch.Toml.Reader

/-!
# TOML documents

A document is the table that its lines build: keys are set in the table that the
last header opened, and before any header in the document itself.
-/

namespace DentryWatch.Toml

structure Draft where
  /-- What was set so far. -/
  root : Table := []
  /-- The path of the open table. -/
  here : List String := []

namespace Draft

def add (draft : Draft) : Statement → Option Draft
  | .assign path value => do
      let root ← draft.root.within (·.assign value path) draft.here
      some { draft with root }
  | .declare path => do
      let root ← draft.root.declare path
      some { root, here := path }
  | .append path => do
      let root ← draft.root.extend path
      some { root, here := path }

end Draft

/-- Reads a document, which a byte order mark may precede. -/
def parse (text : String) : Option Table := do
  let chars := match text.toList with
    | '\uFEFF' :: rest => rest
    | chars => chars
  let statements ← readLines chars
  let draft ← statements.foldlM Draft.add {}
  some draft.root

end DentryWatch.Toml

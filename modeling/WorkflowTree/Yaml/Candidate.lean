import WorkflowTree.Yaml.Cursor

/-!
# Candidates for keys

A mapping key is known as one only when its colon is met. Until then the place where a key
may have started is remembered.
-/

namespace WorkflowTree.Yaml

/-- A place where a mapping key may have started. -/
structure Candidate where
  start : Cursor
  /-- The number of tokens before it. -/
  token : Nat
  /-- Nothing but a key may stand there. -/
  required : Bool

/-- A key has to end on the line where it starts, within 1024 characters. -/
def Candidate.isStale (k : Candidate) (c : Cursor) : Bool :=
  k.start.line < c.line || k.start.index + 1024 < c.index

end WorkflowTree.Yaml

import WorkflowTree.Yaml.Cursor

/-!
# Gaps

Between two words of a plain or quoted scalar lies a gap of blanks and line breaks. In
the value of the scalar a gap within a line keeps its blanks, one line feed becomes a
space, and each further line break stays a line break. A first break of another kind stays
as well.
-/

namespace WorkflowTree.Yaml

/-- So many line feeds. -/
def lineFeeds (n : Nat) : String := String.ofList (List.replicate n '\n')

/-- The blanks and line breaks between two words of a scalar. -/
structure Gap where
  /-- The blanks before the first line break. -/
  blanks : String := ""
  /-- A line break was met. -/
  broken : Bool := false
  /-- The first line break, unless it was escaped by a backslash, and so counts for
  nothing. -/
  first : String := ""
  /-- The line breaks after the first one. -/
  further : String := ""

namespace Gap

/-- What a gap contributes to the value of its scalar. -/
def text (g : Gap) : String :=
  if g.broken then
    if g.first == "\n" then if g.further.isEmpty then " " else g.further
    else g.first ++ g.further
  else g.blanks

/-- The gap with one more line break, which may be the first behind a word. -/
def addBreak (g : Gap) (first : Bool) (c : Char) : Gap :=
  if first then { g with blanks := "", broken := true, first := c.toString }
  else { g with further := g.further.push c }

/-- The gap with one more blank; blanks behind a line break are dropped. -/
def addBlank (g : Gap) (c : Char) : Gap :=
  if g.broken then g else { g with blanks := g.blanks.push c }

/-- Passes one blank or line break; done at the next word. A tab may not stand for indentation
up to a column. -/
def step (indent : Int) (s : Gap × Cursor) : Outcome (Gap × Cursor ⊕ Gap × Cursor) :=
  let (g, c) := s
  if Character.isBlank c.peek then
    if g.broken && c.peek == '\t' && c.column < indent then c.flawed .tabInIndentation
    else .ok (.inl (g.addBlank c.peek, c.skipBlank))
  else if c.isBreak c.peek then .ok (.inl (g.addBreak (!g.broken) c.lineBreak, c.skipBreak))
  else .ok (.inr (g, c))

/-- Passes the rest of a gap. -/
def read (g : Gap) (indent : Int) (c : Cursor) : Outcome (Gap × Cursor) :=
  Cursor.loop Prod.snd (step indent) (g, c)

theorem text_of_not_broken {g : Gap} (h : g.broken = false) : g.text = g.blanks := by
  simp [text, h]

end Gap

end WorkflowTree.Yaml

import WorkflowTree.Yaml.Scalar.Plain

/-!
# Plain scalars of YAML 1.1

A plain scalar ends before `: `, before ` #`, before a marker of a document, below its
indentation, and inside a flow collection also before each flow indicator. There a colon that
an indicator follows is a flaw, and not the end of the scalar.
-/

namespace WorkflowTree.Yaml11.Plain

open Yaml
open Yaml.Character (isBlank isFlow)

/-- The character before `next` belongs to the scalar at a cursor. -/
def continues (inFlow : Bool) (c : Cursor) (x next : Char) : Bool :=
  !c.endsWord x && !(inFlow && isFlow x) &&
    !(x == ':' && (c.endsWord next || (inFlow && (isFlow next || next == '?'))))

/-- What was read of a scalar: its text so far, the gap behind it, and where it ends. -/
structure Progress where
  text : String := ""
  gap : Gap := {}
  cursor : Cursor

/-- Reads one word and the gap behind it. -/
def step (inFlow : Bool) (indent : Int) (s : Progress) : Outcome (Progress ⊕ Progress) := do
  let c := s.cursor
  if c.atDocumentMarker || c.peek == '#' then return .inr s
  let chars := Yaml.Plain.word (continues inFlow c) c.rest
  let next := c.skip chars.length
  if inFlow && next.peek == ':' && !next.endsWord (next.ahead 1) then
    next.flawed .attachedColon
  if chars.isEmpty then return .inr s
  let text := s.text ++ s.gap.text ++ String.ofList chars
  if !(isBlank next.peek || next.isBreak next.peek) then return .inr ⟨text, {}, next⟩
  let (gap, next) ← ({} : Gap).read indent next
  if !inFlow && next.column < indent then return .inr ⟨text, gap, next⟩
  return .inl ⟨text, gap, next⟩

/-- Reads the plain scalar at the cursor, whose further lines have to reach a column outside of
flow collections. Says whether it ends below the line of its last word. -/
def read (inFlow : Bool) (indent : Int) (c : Cursor) : Outcome (String × Bool × Cursor) := do
  let s ← Cursor.loop Progress.cursor (step inFlow indent) { cursor := c }
  return (s.text, s.gap.broken, s.cursor)

end WorkflowTree.Yaml11.Plain

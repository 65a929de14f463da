import WorkflowTree.Yaml.Scalar.Gap

/-!
# Plain scalars

A plain scalar has no quotes. It goes on over blanks and line breaks for as long as its
lines are indented deeply enough, and ends before `: `, before ` #`, before a marker of
a document, and inside a flow collection also before each flow indicator.
-/

namespace WorkflowTree.Yaml.Plain

open Character

/-- Where a plain scalar stands. -/
structure Context where
  /-- The scalar stands inside a flow collection. -/
  inFlow : Bool
  /-- The column that the further lines of the scalar have to reach. -/
  indent : Int

/-- The character before `next` belongs to the scalar. -/
def continues (inFlow : Bool) (c next : Char) : Bool :=
  !endsWord c && !(inFlow && isFlow c) &&
    !(c == ':' && (endsWord next || (inFlow && isFlow next)))

/-- The characters up to the first that does not belong to the scalar. Whether one does may
depend on the character behind it. -/
def word (continues : Char → Char → Bool) : List Char → List Char
  | [] => []
  | c :: rest => if continues c (rest.headD endMark) then c :: word continues rest else []

/-- Passes one blank or line break of a gap; done at the next word. A tab in the
indentation is allowed only on a line without text. -/
def gapStep (indent : Int) (start : Cursor) (s : Gap × Cursor) :
    Outcome (Gap × Cursor ⊕ Gap × Cursor) :=
  let (gap, c) := s
  if isBlank c.peek then
    if !c.fresh then .ok (.inl (gap.addBlank c.peek, c.skipBlank))
    else if c.peek == '\t' && c.column < indent then do
      let (_, next) ← c.skipToLineEnd
      if endsLine next.peek then .ok (.inl (gap, next)) else start.flawed .tabInIndentation
    else .ok (.inl (gap, c.skipBlank))
  else if isBreak c.peek then .ok (.inl (gap.addBreak (!c.fresh) '\n', c.skipBreak))
  else .ok (.inr (gap, c))

/-- What was read of a scalar: its text so far, the gap behind it, and where it ends. -/
structure Progress where
  text : String := ""
  gap : Gap := {}
  cursor : Cursor

/-- Reads one word and the gap behind it. -/
def step (ctx : Context) (start : Cursor) (s : Progress) :
    Outcome (Progress ⊕ String × Cursor) := do
  let c := s.cursor
  if c.atDocumentMarker || c.peek == '#' then return .inr (s.text, c)
  if ctx.inFlow && c.peek == '-' && isFlow (c.ahead 1) then c.flawed .badPlain
  let chars := word (continues ctx.inFlow) c.rest
  let text := if chars.isEmpty then s.text else s.text ++ s.gap.text ++ String.ofList chars
  let next := c.skip chars.length
  if !(isBlank next.peek || isBreak next.peek) then return .inr (text, next)
  let (gap, next) ← Cursor.loop Prod.snd (gapStep ctx.indent start) ({}, next)
  if !ctx.inFlow && next.column < ctx.indent then return .inr (text, next)
  return .inl ⟨text, gap, next⟩

/-- Reads the plain scalar that starts at the cursor. -/
def read (ctx : Context) (c : Cursor) : Outcome (String × Cursor) :=
  if ctx.inFlow && c.column < ctx.indent then c.flawed .lessIndented
  else Cursor.loop Progress.cursor (step ctx c) { cursor := c }

end WorkflowTree.Yaml.Plain

import WorkflowTree.Yaml.Character
import WorkflowTree.Yaml.Flaw

/-!
# Cursors

A cursor is what is left of a text together with the place that was reached. Moving it
keeps count of lines and columns, and of whether the current line has shown anything
but blanks so far.
-/

namespace WorkflowTree.Yaml

/-- What is left of a text, and where it starts. Lines count from one, columns from
zero, and `index` counts all characters passed. -/
structure Cursor where
  rest : List Char
  /-- The number of characters of the whole text. -/
  size : Nat
  index : Nat := 0
  line : Nat := 1
  column : Nat := 0
  /-- Nothing but blanks was passed on this line. -/
  fresh : Bool := true
  /-- Lines end also with the breaks that Unicode has besides those of ASCII. -/
  unicodeBreaks : Bool := false
  deriving Repr

namespace Cursor

/-- A cursor at the start of a text. -/
def ofString (text : String) : Cursor := { rest := text.toList, size := text.length }

/-- The place of the cursor, with columns counted from one. -/
def pos (c : Cursor) : Position := ⟨c.line, c.column + 1⟩

/-- The `n`-th character ahead, or the end mark where the text is over. -/
def ahead (c : Cursor) (n : Nat) : Char := c.rest.getD n endMark

/-- The next character, or the end mark where the text is over. -/
def peek (c : Cursor) : Char := c.ahead 0

/-- A line ends with this character. -/
def isBreak (c : Cursor) (x : Char) : Bool :=
  Character.isBreak x || (c.unicodeBreaks && Character.isUnicodeBreak x)

/-- A line ends here, either by a break or with the text. -/
def endsLine (c : Cursor) (x : Char) : Bool := c.isBreak x || Character.isEnd x

/-- A word ends here. -/
def endsWord (c : Cursor) (x : Char) : Bool := Character.isBlank x || c.endsLine x

/-- The break at the cursor as it counts in a text: all but the separators of Unicode stand for
line feeds. -/
def lineBreak (c : Cursor) : Char :=
  if c.peek == '\u2028' || c.peek == '\u2029' then c.peek else '\n'

/-- A flaw at the place of the cursor. -/
def flawed {α : Type} (c : Cursor) (flaw : Flaw) : Outcome α := .error ⟨flaw, c.pos⟩

/-! ### Moving -/

/-- Passes `n` characters of a line. -/
def skip (c : Cursor) (n : Nat) : Cursor :=
  { c with
    rest := c.rest.drop n, index := c.index + n, column := c.column + n,
    fresh := c.fresh && n == 0 }

/-- Passes one blank, which leaves a fresh line fresh. -/
def skipBlank (c : Cursor) : Cursor :=
  { c with rest := c.rest.drop 1, index := c.index + 1, column := c.column + 1 }

/-- Passes one line break; a carriage return and a line feed behind it are one break. -/
def skipBreak (c : Cursor) : Cursor :=
  let n := if c.peek == '\r' && c.ahead 1 == '\n' then 2 else 1
  { c with
    rest := c.rest.drop n, index := c.index + n, line := c.line + 1, column := 0,
    fresh := true }

/-- The characters of this line for as long as they belong to a class. -/
def run (c : Cursor) (p : Char → Bool) : List Char :=
  c.rest.takeWhile fun x => p x && !c.endsLine x

/-- Passes the characters of this line that belong to a class. -/
def skipRun (c : Cursor) (p : Char → Bool) : Cursor :=
  c.skip (c.run p).length

/-- Passes blanks that belong to a class. -/
def skipBlanks (c : Cursor) (p : Char → Bool) : Cursor :=
  let n := (c.run p).length
  { c with rest := c.rest.drop n, index := c.index + n, column := c.column + n }

/-- Passes the rest of the line. -/
def skipLine (c : Cursor) : Cursor := c.skipRun fun _ => true

/-- Which blanks were passed before the end of a line. -/
structure Blanks where
  tab : Bool
  space : Bool

/-- Passes blanks and a comment behind them. A comment needs a blank before it. -/
def skipToLineEnd (c : Cursor) : Outcome (Blanks × Cursor) :=
  let blanks := c.run Character.isBlank
  let next := c.skipBlanks Character.isBlank
  let found : Blanks := ⟨blanks.contains '\t', blanks.contains ' '⟩
  if next.peek == '#' then
    if blanks.isEmpty then c.flawed .commentWithoutBlank else .ok (found, next.skipLine)
  else .ok (found, next)

/-! ### Markers of documents -/

/-- The cursor stands before three of this character, which a blank, a break or the end
of the text follows. -/
def atTriple (c : Cursor) (x : Char) : Bool :=
  c.ahead 0 == x && c.ahead 1 == x && c.ahead 2 == x && c.endsWord (c.ahead 3)

/-- The marker of a document's start stands here. -/
def atDocumentStart (c : Cursor) : Bool := c.column == 0 && c.atTriple '-'

/-- The marker of a document's end stands here. -/
def atDocumentEnd (c : Cursor) : Bool := c.column == 0 && c.atTriple '.'

/-- The marker of a document's start or end stands here. -/
def atDocumentMarker (c : Cursor) : Bool := c.atDocumentStart || c.atDocumentEnd

/-! ### Repeating -/

/-- Repeats a step from a cursor that passes at least one character each time, until it
is done. -/
def loop {σ α : Type} (cursor : σ → Cursor) (step : σ → Outcome (σ ⊕ α)) (s : σ) :
    Outcome α :=
  repeatUpTo step (fun s => ⟨.unfinished, (cursor s).pos⟩) ((cursor s).size + 2) s

end Cursor

end WorkflowTree.Yaml

import WorkflowTree.Yaml.Scalar.Gap

/-!
# Block scalars

A literal (`|`) or folded (`>`) scalar takes the indented lines below its header. The
header may say how many columns the lines are indented and what becomes of the line
breaks at the end; without a number the first line with text decides the indentation.
-/

namespace WorkflowTree.Yaml.Block

open Character

/-- What becomes of the line breaks at the end of a block scalar. -/
inductive Chomping
  /-- All of them are dropped. -/
  | strip
  /-- The first one stays. -/
  | clip
  /-- All of them stay. -/
  | keep
  deriving DecidableEq

/-- The header of a block scalar. -/
structure Header where
  chomping : Chomping := .clip
  /-- The number of columns that the lines are indented below their parent. -/
  increment : Option Nat := none

/-- The chomping that a sign asks for. -/
def Chomping.ofSign? : Char → Option Chomping
  | '+' => some .keep
  | '-' => some .strip
  | _ => none

/-- The number that a digit of a header writes; zero is not one. -/
def readIncrement (start c : Cursor) : Outcome (Option Nat × Cursor) :=
  if c.peek == '0' then start.flawed .badBlockHeader
  else if c.peek.isDigit then .ok (some (hexValue c.peek), c.skip 1)
  else .ok (none, c)

/-- Reads the sign and the digit behind the indicator, in either order. -/
def readHeader (start c : Cursor) : Outcome (Header × Cursor) := do
  match Chomping.ofSign? c.peek with
  | some chomping =>
    let (increment, c) ← readIncrement start (c.skip 1)
    return (⟨chomping, increment⟩, c)
  | none =>
    let (increment, c) ← readIncrement start c
    match increment, Chomping.ofSign? c.peek with
    | some _, some chomping => return (⟨chomping, increment⟩, c.skip 1)
    | _, _ => return (⟨.clip, increment⟩, c)

/-- Passes empty lines and the indentation of the next line with text, up to the given
column. Gives the number of line breaks passed. -/
def skipIndent (indent : Nat) (c : Cursor) : Outcome (Nat × Cursor) :=
  Cursor.loop Prod.snd
    (fun (breaks, c) =>
      if c.peek == ' ' && c.column < indent then .ok (.inl (breaks, c.skipBlank))
      else if isBreak c.peek then .ok (.inl (breaks + 1, c.skipBreak))
      else .ok (.inr (breaks, c)))
    (0, c)

/-- Passes empty lines and all spaces before the next line with text. Gives the number of
line breaks passed and the widest indentation seen. -/
def measureIndent (c : Cursor) : Outcome (Nat × Nat × Cursor) :=
  Cursor.loop (fun (_, _, c) => c)
    (fun (breaks, widest, c) =>
      if c.peek == ' ' then .ok (.inl (breaks, widest, c.skipBlank))
      else
        let widest := max widest c.column
        if isBreak c.peek then .ok (.inl (breaks + 1, widest, c.skipBreak))
        else .ok (.inr (breaks, widest, c)))
    (0, 0, c)

/-- The part of a block scalar that was read. -/
structure Progress where
  text : String := ""
  /-- The line break behind the last line, when it is not yet part of the text. -/
  pending : Bool := false
  /-- The empty lines behind that line break. -/
  empty : Nat := 0
  /-- The last line started with a blank, so the break behind it is not folded. -/
  blankLine : Bool := false
  cursor : Cursor

/-- What joins the next line to the text: a folded scalar turns a single line break
between two lines that start without a blank into a space. -/
def Progress.join (s : Progress) (folded startsBlank : Bool) : String :=
  if folded && s.pending && !s.blankLine && !startsBlank then
    if s.empty == 0 then " " else lineFeeds s.empty
  else lineFeeds ((if s.pending then 1 else 0) + s.empty)

/-- Reads one line of the scalar; done at a line with less indentation. -/
def lineStep (folded : Bool) (indent : Nat) (s : Progress) : Outcome (Progress ⊕ Progress) := do
  let c := s.cursor
  if c.column != indent || isEnd c.peek || c.atDocumentEnd then return .inr s
  let startsBlank := isBlank c.peek
  let line := c.run fun _ => true
  let text := s.text ++ s.join folded startsBlank ++ String.ofList line
  let next := c.skip line.length
  if isEnd next.peek then
    return .inr { text, blankLine := startsBlank, cursor := next }
  let (empty, next) ← skipIndent indent next.skipBreak
  return .inl { text, pending := true, empty, blankLine := startsBlank, cursor := next }

/-- The line breaks that chomping leaves at the end of the text. A text that ends within
a line as deep as the scalar is closed by a line break. -/
def Progress.tail (s : Progress) (chomping : Chomping) (indent : Nat) : String :=
  let first := (if s.pending then 1 else 0)
    + (if isEnd s.cursor.peek && max indent 1 ≤ s.cursor.column then 1 else 0)
  match chomping with
  | .strip => ""
  | .clip => lineFeeds first
  | .keep => lineFeeds (first + s.empty)

/-- A block scalar: its text, and the place of its first line. -/
structure Scalar where
  text : String
  pos : Position

/-- Reads the block scalar whose indicator stands at the cursor, below a collection that
is indented by `parent` columns. A scalar without any line stands at its indicator. -/
def read (folded : Bool) (parent : Int) (start : Cursor) : Outcome (Scalar × Cursor) := do
  let (header, c) ← readHeader start (start.skip 1)
  let (_, c) ← c.skipToLineEnd
  if !endsLine c.peek then start.flawed .badBlockHeader
  let opened := isBreak c.peek
  let c := if opened then c.skipBreak else c
  if c.peek == '\t' then start.flawed .tabInIndentation
  let (empty, indent, c) ← match header.increment with
    | some n => do
      let indent := (max parent 0).toNat + n
      let (empty, c) ← skipIndent indent c
      pure (empty, indent, c)
    | none => do
      let (empty, widest, c) ← measureIndent c
      pure (empty, max widest (parent + 1).toNat, c)
  if isEnd c.peek then
    let first := if opened then 1 else 0
    let breaks := match header.chomping with
      | .strip => 0
      | .clip => first
      | .keep => max empty first
    return (⟨lineFeeds breaks, start.pos⟩, c)
  if c.column < indent && parent < c.column then c.flawed .lessIndented
  let s ← Cursor.loop Progress.cursor (lineStep folded indent) { empty, cursor := c }
  return (⟨s.text ++ s.tail header.chomping indent, c.pos⟩, s.cursor)

end WorkflowTree.Yaml.Block

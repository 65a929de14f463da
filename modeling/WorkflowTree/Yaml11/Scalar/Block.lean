import WorkflowTree.Yaml.Scalar.Block
import WorkflowTree.Yaml11.Property

/-!
# Block scalars of YAML 1.1

The header of a block scalar is that of all versions. Its lines are those that reach the
indentation, which the header gives or the first line with text decides; lines with less end
the scalar, and no tab may stand where indentation is expected. Line breaks are kept as they
count in a text, and the text that ends without one gets none.
-/

namespace WorkflowTree.Yaml11.Block

open Yaml
open Yaml.Character (isBlank isEnd)

/-- Passes empty lines and the indentation of the next line with text, up to a column if one is
given. Gives the line breaks passed and the widest indentation seen. -/
def skipIndent (indent : Option Nat) (c : Cursor) : Outcome (String × Nat × Cursor) :=
  Cursor.loop (fun (_, _, c) => c)
    (fun (breaks, widest, c) =>
      let short := indent.all (c.column < ·)
      if short && c.peek == ' ' then .ok (.inl (breaks, widest, c.skipBlank))
      else
        let widest := max widest c.column
        if short && c.peek == '\t' then c.flawed .tabInIndentation
        else if c.isBreak c.peek then
          .ok (.inl (breaks.push c.lineBreak, widest, c.skipBreak))
        else .ok (.inr (breaks, widest, c)))
    ("", 0, c)

/-- The part of a block scalar that was read. -/
structure Progress where
  text : String := ""
  /-- The line break behind the last line, which is empty at the end of the text. -/
  lineBreak : String := ""
  /-- The line breaks of the empty lines behind it. -/
  further : String := ""
  /-- The last line started with a blank, so the break behind it is not folded. -/
  blankLine : Bool := false
  cursor : Cursor

/-- What joins the next line to the text: a folded scalar turns a single line feed between two
lines that start without a blank into a space. -/
def Progress.join (s : Progress) (folded startsBlank : Bool) : String :=
  if folded && s.lineBreak == "\n" && !s.blankLine && !startsBlank then
    if s.further.isEmpty then " " else s.further
  else s.lineBreak ++ s.further

/-- Reads one line of the scalar; done at a line with another indentation. -/
def lineStep (folded : Bool) (indent : Nat) (s : Progress) : Outcome (Progress ⊕ Progress) := do
  let c := s.cursor
  if c.column != indent || isEnd c.peek then return .inr s
  let startsBlank := isBlank c.peek
  let line := c.run fun _ => true
  let text := s.text ++ s.join folded startsBlank ++ String.ofList line
  let next := c.skip line.length
  let (lineBreak, next) :=
    if isEnd next.peek then ("", next) else (next.lineBreak.toString, next.skipBreak)
  let (further, _, next) ← skipIndent (some indent) next
  return .inl { text, lineBreak, further, blankLine := startsBlank, cursor := next }

/-- The line breaks that chomping leaves at the end of the text. -/
def Progress.tail (s : Progress) : Yaml.Block.Chomping → String
  | .strip => ""
  | .clip => s.lineBreak
  | .keep => s.lineBreak ++ s.further

/-- Reads the block scalar whose indicator stands at the cursor, below a collection that is
indented by `parent` columns. -/
def read (folded : Bool) (parent : Int) (start : Cursor) : Outcome (String × Cursor) := do
  let (header, c) ← Yaml.Block.readHeader start (start.skip 1)
  let c := skipComment c
  if !c.endsLine c.peek then start.flawed .badBlockHeader
  let c := if isEnd c.peek then c else c.skipBreak
  let given := header.increment.map ((max parent 0).toNat + ·)
  let (further, widest, c) ← skipIndent given c
  let indent := given.getD (max widest (max (parent + 1).toNat 1))
  let s ← Cursor.loop Progress.cursor (lineStep folded indent) { further, cursor := c }
  return (s.text ++ s.tail header.chomping, s.cursor)

end WorkflowTree.Yaml11.Block

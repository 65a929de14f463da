import WorkflowTree.Yaml.Scalar.Gap

/-!
# Quoted scalars

A single quoted scalar writes a quote twice and knows no other escape. A double quoted
scalar knows the backslash escapes of YAML, one of which joins two lines without a space.
-/

namespace WorkflowTree.Yaml.Quoted

open Character

/-- The two kinds of quotes. -/
inductive Style
  | single
  | double
  deriving DecidableEq

/-- The character that opens and closes a scalar of this style. -/
def Style.quote : Style → Char
  | .single => '\''
  | .double => '"'

/-- The character that a one-letter escape stands for. -/
def escaped? : Char → Option Char
  | '0' => some '\x00'
  | 'a' => some '\x07'
  | 'b' => some '\x08'
  | 't' | '\t' => some '\t'
  | 'n' => some '\n'
  | 'v' => some '\x0b'
  | 'f' => some '\x0c'
  | 'r' => some '\r'
  | 'e' => some '\x1b'
  | ' ' => some ' '
  | '"' => some '"'
  | '/' => some '/'
  | '\\' => some '\\'
  | 'N' => some '\u0085'
  | '_' => some '\u00a0'
  | 'L' => some '\u2028'
  | 'P' => some '\u2029'
  | _ => none

/-- How many hexadecimal digits follow the letter of a numeric escape. -/
def digits? : Char → Option Nat
  | 'x' => some 2
  | 'u' => some 4
  | 'U' => some 8
  | _ => none

/-- The number that a list of hexadecimal digits writes. -/
def hexNumber (cs : List Char) : Nat := cs.foldl (fun n c => 16 * n + hexValue c) 0

/-- Reads the escape that a backslash at the cursor starts. -/
def readEscape (start c : Cursor) : Outcome (Char × Cursor) :=
  match escaped? (c.ahead 1), digits? (c.ahead 1) with
  | some x, _ => .ok (x, c.skip 2)
  | none, some n =>
    let digits := (c.rest.drop 2).take n
    if digits.length == n && digits.all isHex then
      match charOfCode? (hexNumber digits) with
      | some x => .ok (x, c.skip (2 + n))
      | none => start.flawed .badEscape
    else start.flawed .badEscape
  | none, none => start.flawed .badEscape

/-- Reads one character of a word; done at a blank, a line break, the closing quote or
the end. An escaped line break ends the word and opens the gap behind it. -/
def wordStep (style : Style) (start : Cursor) (s : String × Cursor) :
    Outcome (String × Cursor ⊕ String × Gap × Cursor) :=
  let (text, c) := s
  let x := c.peek
  if c.endsWord x then .ok (.inr (text, {}, c))
  else match style with
    | .single =>
      if x == '\'' then
        if c.ahead 1 == '\'' then .ok (.inl (text.push x, c.skip 2)) else .ok (.inr (text, {}, c))
      else .ok (.inl (text.push x, c.skip 1))
    | .double =>
      if x == '"' then .ok (.inr (text, {}, c))
      else if x == '\\' then
        if c.isBreak (c.ahead 1) then
          .ok (.inr (text, { broken := true }, (c.skip 1).skipBreak))
        else do
          let (y, next) ← readEscape start c
          return .inl (text.push y, next)
      else .ok (.inl (text.push x, c.skip 1))

/-- Reads one word and the gap behind it; done at the closing quote. -/
def step (style : Style) (indent : Int) (start : Cursor) (s : String × Cursor) :
    Outcome (String × Cursor ⊕ String × Cursor) := do
  let (text, c) := s
  if c.atDocumentMarker || isEnd c.peek then start.flawed .unclosedQuote
  if c.column < indent then start.flawed .lessIndented
  let (text, gap, next) ← Cursor.loop Prod.snd (wordStep style start) (text, c)
  if next.peek == style.quote then return .inr (text, next.skip 1)
  let (gap, next) ← gap.read indent next
  return .inl (text ++ gap.text, next)

/-- Reads the quoted scalar that starts at the cursor. The lines of the scalar have to
reach the column `indent`. -/
def read (style : Style) (indent : Int) (c : Cursor) : Outcome (String × Cursor) :=
  Cursor.loop Prod.snd (step style indent c) ("", c.skip 1)

end WorkflowTree.Yaml.Quoted

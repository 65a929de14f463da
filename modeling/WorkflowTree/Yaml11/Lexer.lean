import WorkflowTree.Yaml.Candidate
import WorkflowTree.Yaml.Scalar.Quoted
import WorkflowTree.Yaml11.Property
import WorkflowTree.Yaml11.Scalar.Block
import WorkflowTree.Yaml11.Scalar.Plain

/-!
# Lexers of YAML 1.1

A lexer turns a text into tokens one step at a time. It keeps the columns of the block
collections that are open, and for each collection the place where a key may have started. A
key has to end soon in flow collections as well, and only the indentation of block collections
counts. Tabs may not stand where a key could start, and any `#` between tokens starts a comment.
-/

namespace WorkflowTree.Yaml11

open Yaml
open Yaml.Character (isBlank isEnd)
open Yaml11.Character

/-- The state of reading a text as tokens. -/
structure Lexer where
  cursor : Cursor
  tokens : Array Token := #[]
  /-- The columns of the block collections that are open, the deepest first. -/
  indents : List Nat := []
  /-- Where a key may have started in the innermost collection. -/
  candidate : Option Candidate := none
  /-- The same for what encloses each flow collection, the innermost first. -/
  outer : List (Option Candidate) := []
  /-- A key may start at the next token. -/
  keyAllowed : Bool := true

namespace Lexer

/-- A lexer at the start of a text. -/
def ofString (text : String) : Lexer :=
  { cursor := { Cursor.ofString text with unicodeBreaks := true } }

/-- No flow collection is open. -/
def inBlock (lx : Lexer) : Bool := lx.outer.isEmpty

/-- The column of the deepest block collection, which is -1 outside of all of them. -/
def indent (lx : Lexer) : Int :=
  match lx.indents with
  | [] => -1
  | column :: _ => column

/-- Adds a token behind all others. -/
def push (lx : Lexer) (w : Word) (pos : Position) : Lexer :=
  { lx with tokens := lx.tokens.push ⟨w, pos⟩ }

/-- Adds a token so that so many tokens are before it. -/
def insert (lx : Lexer) (n : Nat) (w : Word) (pos : Position) : Lexer :=
  { lx with tokens := lx.tokens.insertIdxIfInBounds n ⟨w, pos⟩ }

/-! ### Indentation -/

/-- Closes the block collections that are deeper than a column. -/
def unroll (lx : Lexer) (column : Int) : Lexer :=
  if lx.inBlock then
    let closed := lx.indents.takeWhile fun (i : Nat) => column < i
    let ends : List Token := closed.map fun _ => ⟨.blockEnd, lx.cursor.pos⟩
    { lx with indents := lx.indents.drop closed.length, tokens := lx.tokens ++ ends }
  else lx

/-- Opens a block collection at a column if none is open there. So many tokens stand before
its first token. -/
def roll (lx : Lexer) (column : Nat) (w : Word) (pos : Position) (before : Nat) : Lexer :=
  if lx.inBlock && lx.indent < column then
    { lx with indents := column :: lx.indents }.insert before w pos
  else lx

/-! ### Candidates for keys -/

/-- Gives up the candidate of the innermost collection, which is a flaw if it has to be
a key. -/
def dropCandidate (lx : Lexer) : Outcome Lexer :=
  if lx.candidate.any Candidate.required then lx.cursor.flawed .keyWithoutColon
  else .ok { lx with candidate := none }

/-- Remembers that a key may start at the cursor. -/
def saveCandidate (lx : Lexer) : Outcome Lexer := do
  if !lx.keyAllowed then return lx
  let lx ← lx.dropCandidate
  let required := lx.inBlock && lx.indent == lx.cursor.column
  return { lx with candidate := some ⟨lx.cursor, lx.tokens.size, required⟩ }

/-- Gives up the candidate of the innermost collection if its key would have had to end. Those
of outer collections stay, since they get no younger until these are the innermost. -/
def dropStale (lx : Lexer) : Outcome Lexer :=
  if lx.candidate.any (·.isStale lx.cursor) then lx.dropCandidate else .ok lx

/-! ### Blanks, breaks and comments between tokens -/

/-- Passes one blank, line break or comment; done at the next token. A byte order mark may
start a line. -/
def skipStep (lx : Lexer) : Outcome (Lexer ⊕ Lexer) :=
  let c := lx.cursor
  if (c.column == 0 && c.peek == '\uFEFF') || c.peek == ' '
      || (c.peek == '\t' && (!lx.inBlock || !lx.keyAllowed)) then
    .ok (.inl { lx with cursor := c.skipBlank })
  else if c.peek == '#' then .ok (.inl { lx with cursor := c.skipLine })
  else if c.isBreak c.peek then
    .ok (.inl { lx with cursor := c.skipBreak, keyAllowed := lx.keyAllowed || lx.inBlock })
  else .ok (.inr lx)

/-- Passes everything before the next token. -/
def skipToToken (lx : Lexer) : Outcome Lexer := Cursor.loop Lexer.cursor skipStep lx

/-! ### Documents -/

/-- Ends all block collections and forbids a key to follow on the line. -/
def closeBlocks (lx : Lexer) : Outcome Lexer := do
  let lx ← (lx.unroll (-1)).dropCandidate
  return { lx with keyAllowed := false }

/-- Reads a directive. -/
def readDirective (lx : Lexer) : Outcome Lexer := do
  let lx ← lx.closeBlocks
  let (d, c) ← Directive.read lx.cursor
  return { lx with cursor := c }.push (.directive d) lx.cursor.pos

/-- Reads the marker of a document's start or end. -/
def readMarker (lx : Lexer) (w : Word) : Outcome Lexer := do
  let lx ← lx.closeBlocks
  return { lx with cursor := lx.cursor.skip 3 }.push w lx.cursor.pos

/-! ### Flow collections -/

/-- Passes an indicator of one character. -/
def pass (lx : Lexer) (w : Word) : Lexer :=
  { lx with cursor := lx.cursor.skip 1 }.push w lx.cursor.pos

/-- Reads the opening bracket of a flow collection. -/
def openFlow (lx : Lexer) (w : Word) : Outcome Lexer := do
  let lx ← lx.saveCandidate
  return { lx with candidate := none, outer := lx.candidate :: lx.outer, keyAllowed := true }.pass w

/-- Reads the closing bracket of a flow collection. -/
def closeFlow (lx : Lexer) (w : Word) : Outcome Lexer := do
  let lx ← lx.dropCandidate
  let lx := match lx.outer with
    | k :: outer => { lx with candidate := k, outer }
    | [] => lx
  return { lx with keyAllowed := false }.pass w

/-- Reads the comma between two entries of a flow collection. -/
def readFlowEntry (lx : Lexer) : Outcome Lexer := do
  return { ← lx.dropCandidate with keyAllowed := true }.pass .flowEntry

/-! ### Indicators of entries, keys and values -/

/-- Opens a block collection at the cursor, where one may start only if a key could. -/
def rollHere (lx : Lexer) (w : Word) : Outcome Lexer :=
  if lx.inBlock && !lx.keyAllowed then lx.cursor.flawed .misplacedIndicator
  else .ok (lx.roll lx.cursor.column w lx.cursor.pos lx.tokens.size)

/-- Reads the dash of a block sequence. -/
def readBlockEntry (lx : Lexer) : Outcome Lexer := do
  let lx ← (← lx.rollHere .blockSequenceStart).dropCandidate
  return { lx with keyAllowed := true }.pass .blockEntry

/-- Reads the question mark of an explicit key. -/
def readKey (lx : Lexer) : Outcome Lexer := do
  let lx ← (← lx.rollHere .blockMappingStart).dropCandidate
  return { lx with keyAllowed := lx.inBlock }.pass .key

/-- Reads the colon of a value. The candidate before it, if there is one, turns out to be
a key. -/
def readValue (lx : Lexer) : Outcome Lexer := do
  match lx.candidate with
  | some k =>
    let lx := lx.insert k.token .key k.start.pos
    let lx := lx.roll k.start.column .blockMappingStart k.start.pos k.token
    return { lx with candidate := none, keyAllowed := false }.pass .value
  | none =>
    let lx ← lx.rollHere .blockMappingStart
    return { lx with keyAllowed := lx.inBlock }.pass .value

/-! ### Properties and scalars -/

/-- Starts a node on this line: it may be a key, and no further key starts behind it. -/
def startNode (lx : Lexer) : Outcome Lexer := do
  return { ← lx.saveCandidate with keyAllowed := false }

/-- Reads an anchor or an alias. -/
def readAnchored (lx : Lexer) (word : String → Word) : Outcome Lexer := do
  let lx ← lx.startNode
  let (name, c) ← readAnchor lx.cursor
  return { lx with cursor := c }.push (word name) lx.cursor.pos

/-- Reads a tag. -/
def readTag (lx : Lexer) : Outcome Lexer := do
  let lx ← lx.startNode
  let (tag, c) ← Tag.read (!lx.inBlock) lx.cursor
  return { lx with cursor := c }.push (.tag tag) lx.cursor.pos

/-- Reads a block scalar. -/
def readBlock (lx : Lexer) (style : ScalarStyle) : Outcome Lexer := do
  let lx ← lx.dropCandidate
  let (text, c) ← Block.read (style == .folded) lx.indent lx.cursor
  return { lx with cursor := c, keyAllowed := true }.push (.scalar text style) lx.cursor.pos

/-- Reads a quoted scalar, whose lines need no indentation. -/
def readQuoted (lx : Lexer) (style : Quoted.Style) : Outcome Lexer := do
  let lx ← lx.startNode
  let (text, c) ← Quoted.read style (-1) lx.cursor
  return { lx with cursor := c }.push (.scalar text .quoted) lx.cursor.pos

/-- Reads a plain scalar. A key may follow when the scalar ends with a line break. -/
def readPlain (lx : Lexer) : Outcome Lexer := do
  let lx ← lx.startNode
  let (text, broken, c) ← Plain.read (!lx.inBlock) (lx.indent + 1) lx.cursor
  return { lx with cursor := c, keyAllowed := broken }.push (.scalar text .plain) lx.cursor.pos

/-- A plain scalar starts with the character `x` before `y`. -/
def startsPlain (lx : Lexer) (x y : Char) : Bool :=
  let c := lx.cursor
  !(isIndicator x || c.endsWord x) || (x == '-' && !isBlank y)
    || (lx.inBlock && (x == '?' || x == ':') && !c.endsWord y)

/-! ### All tokens -/

/-- Reads the token whose first character is at the cursor. -/
def readToken (lx : Lexer) : Outcome Lexer :=
  let c := lx.cursor
  let x := c.peek
  let y := c.ahead 1
  let isLone := !lx.inBlock || c.endsWord y
  if c.column == 0 && x == '%' then lx.readDirective
  else if c.atDocumentStart then lx.readMarker .documentStart
  else if c.atDocumentEnd then lx.readMarker .documentEnd
  else if x == '[' then lx.openFlow .flowSequenceStart
  else if x == '\x7b' then lx.openFlow .flowMappingStart
  else if x == ']' then lx.closeFlow .flowSequenceEnd
  else if x == '\x7d' then lx.closeFlow .flowMappingEnd
  else if x == ',' then lx.readFlowEntry
  else if x == '-' && c.endsWord y then lx.readBlockEntry
  else if x == '?' && isLone then lx.readKey
  else if x == ':' && isLone then lx.readValue
  else if x == '*' then lx.readAnchored .alias
  else if x == '&' then lx.readAnchored .anchor
  else if x == '!' then lx.readTag
  else if x == '|' && lx.inBlock then lx.readBlock .literal
  else if x == '>' && lx.inBlock then lx.readBlock .folded
  else if x == '\'' then lx.readQuoted .single
  else if x == '"' then lx.readQuoted .double
  else if lx.startsPlain x y then lx.readPlain
  else c.flawed .reservedCharacter

/-- Reads one more token, and before it the ends of the block collections it is not part of;
done at the end of the text. -/
def step (lx : Lexer) : Outcome (Lexer ⊕ Array Token) := do
  let lx ← (← lx.skipToToken).dropStale
  let lx := lx.unroll lx.cursor.column
  if isEnd lx.cursor.peek then
    let lx ← lx.closeBlocks
    return .inr (lx.push .streamEnd lx.cursor.pos).tokens
  return .inl (← lx.readToken)

end Lexer

/-- The tokens of a text. -/
def tokens (text : String) : Outcome (List Token) := do
  return (← Cursor.loop Lexer.cursor Lexer.step (Lexer.ofString text)).toList

end WorkflowTree.Yaml11

import WorkflowTree.Yaml.Candidate
import WorkflowTree.Yaml.Property
import WorkflowTree.Yaml.Scalar.Block
import WorkflowTree.Yaml.Scalar.Plain
import WorkflowTree.Yaml.Scalar.Quoted

/-!
# Lexers

A lexer turns a text into tokens one step at a time. Two things make YAML tokens depend
on more than the characters at hand:

* indentation opens and closes block collections, so the lexer keeps the columns of the
  collections that are open;
* a mapping key is known as one only when its colon is met, so the lexer remembers where
  a key may have started (a `Candidate`) and puts the tokens for the key there once the
  colon appears. A token is handed out only when no candidate waits in front of it.

`Lexer.next` hands out the next token and reads no further than that needs, so that the
tokens in front of a flaw are all that `tokenStream` has for a text.
-/

namespace WorkflowTree.Yaml

open Character

/-! ### State -/

/-- An indentation in force: its column, and whether a block collection is open there.
An indentation without one only bounds the lines of a value. -/
structure Indent where
  column : Nat
  block : Bool

/-- A flow collection that is open. -/
structure Flow where
  /-- The candidate of what encloses the collection. -/
  outer : Option Candidate

/-- The state of reading a text as tokens. -/
structure Lexer where
  cursor : Cursor
  /-- All tokens so far, those handed out first. -/
  tokens : Array Token := #[]
  /-- The number of tokens handed out. -/
  taken : Nat := 0
  /-- The indentations in force, the deepest first. -/
  indents : List Indent := []
  /-- The flow collections that are open, the innermost first. -/
  flows : List Flow := []
  /-- Where a key may have started in the innermost collection. -/
  candidate : Option Candidate := none
  /-- A key may start at the next token. -/
  keyAllowed : Bool := true
  /-- Braces or an explicit key were met since the last single pair was closed. -/
  braced : Bool := false
  /-- The last colon belongs to a single pair without braces that is still open. -/
  pair : Bool := false
  /-- The place behind a quoted scalar or a flow collection, where a colon needs no
  blank behind it. -/
  adjacent : Nat := 0

namespace Lexer

/-- A lexer at the start of a text. -/
def ofString (text : String) : Lexer := { cursor := Cursor.ofString text }

/-- No flow collection is open. -/
def inBlock (lx : Lexer) : Bool := lx.flows.isEmpty

/-- The column of the deepest indentation, which is -1 outside of all collections. -/
def indent (lx : Lexer) : Int :=
  match lx.indents with
  | [] => -1
  | i :: _ => i.column

/-- The deepest indentation belongs to a block collection. -/
def atBlockIndent (lx : Lexer) : Bool := lx.indents.head?.any Indent.block

/-- Adds a token behind all others. -/
def push (lx : Lexer) (w : Word) (pos : Position) : Lexer :=
  { lx with tokens := lx.tokens.push ⟨w, pos⟩ }

/-- Adds a token so that so many tokens are before it. -/
def insert (lx : Lexer) (n : Nat) (w : Word) (pos : Position) : Lexer :=
  { lx with tokens := lx.tokens.insertIdxIfInBounds n ⟨w, pos⟩ }

/-! ### Indentation -/

/-- Closes the indentations that are deeper than a column, where block collections end. -/
def unroll (lx : Lexer) (column : Int) : Lexer :=
  if lx.inBlock then
    let closed := lx.indents.takeWhile fun i => column < i.column
    let ends : List Token := (closed.filter Indent.block).map fun _ => ⟨.blockEnd, lx.cursor.pos⟩
    { lx with indents := lx.indents.drop closed.length, tokens := lx.tokens ++ ends }
  else lx

/-- Opens a block collection at a column if none is open there. Its first token stands
behind all others, or behind so many if a number is given. -/
def roll (lx : Lexer) (column : Nat) (w : Word) (pos : Position) (behind : Option Nat) :
    Lexer :=
  if lx.inBlock then
    let indents :=
      if lx.indent ≤ column && !lx.atBlockIndent then lx.indents.drop 1 else lx.indents
    let lx := { lx with indents }
    if lx.indent < (column : Int) then
      let lx := { lx with indents := ⟨column, true⟩ :: lx.indents }
      match behind with
      | some n => lx.insert n w pos
      | none => lx.push w pos
    else lx
  else lx

/-- Asks the lines of a value to be indented by one more column than its collection. -/
def rollValue (lx : Lexer) : Lexer :=
  if lx.inBlock && lx.atBlockIndent then
    { lx with indents := ⟨(lx.indent + 1).toNat, false⟩ :: lx.indents }
  else lx

/-- Takes back what `rollValue` did. -/
def unrollValue (lx : Lexer) : Lexer :=
  { lx with indents := lx.indents.dropWhile fun i => !i.block }

/-! ### Candidates for keys -/

/-- Remembers that a key may start at the cursor. -/
def saveCandidate (lx : Lexer) : Lexer :=
  if lx.keyAllowed then
    let required := lx.inBlock && lx.atBlockIndent && lx.indent == lx.cursor.column
    { lx with candidate := some ⟨lx.cursor, lx.tokens.size, required⟩ }
  else lx

/-- Gives up the candidate of the innermost collection, which is a flaw if it has to be
a key. -/
def dropCandidate (lx : Lexer) : Outcome Lexer :=
  if lx.candidate.any Candidate.required then lx.cursor.flawed .keyWithoutColon
  else .ok { lx with candidate := none }

/-- Outside of flow collections a key has to end soon. -/
def dropStale (lx : Lexer) : Outcome Lexer :=
  if lx.inBlock && lx.candidate.any (·.isStale lx.cursor) then lx.dropCandidate else .ok lx

/-- A candidate waits in front of the next token to be handed out. -/
def waits (lx : Lexer) : Bool :=
  (lx.candidate :: lx.flows.map Flow.outer).any fun k => k.any fun k => k.token == lx.taken

/-! ### Blanks, breaks and comments between tokens -/

/-- Passes one blank, line break or comment; done at the next token. A tab may not stand
for the indentation of a block collection. -/
def skipStep (lx : Lexer) : Outcome (Lexer ⊕ Lexer) :=
  let c := lx.cursor
  if c.peek == '\t' && !lx.indents.isEmpty && c.fresh && c.column < lx.indent then do
    let (_, next) ← c.skipToLineEnd
    if endsLine next.peek then return .inl { lx with cursor := next }
    next.flawed .tabInIndentation
  else if isBlank c.peek then .ok (.inl { lx with cursor := c.skipBlank })
  else if isBreak c.peek then
    .ok (.inl { lx with cursor := c.skipBreak, keyAllowed := lx.keyAllowed || lx.inBlock })
  else if c.peek == '#' then .ok (.inl { lx with cursor := c.skipLine })
  else .ok (.inr lx)

/-- Passes everything before the next token. -/
def skipToToken (lx : Lexer) : Outcome Lexer := Cursor.loop Lexer.cursor skipStep lx

/-- Passes blanks and a comment on the line. -/
def skipToLineEnd (lx : Lexer) : Outcome Lexer := do
  let (_, c) ← lx.cursor.skipToLineEnd
  return { lx with cursor := c }

/-! ### Documents -/

/-- Ends all block collections and forbids a key to follow on the line. -/
def closeBlocks (lx : Lexer) : Outcome Lexer := do
  let lx ← (lx.unroll (-1)).dropCandidate
  return { lx with keyAllowed := false }

/-- Reads the end of the text, which counts as the start of a line of its own. -/
def readEnd (lx : Lexer) : Outcome Lexer := do
  let c := lx.cursor
  let c := if c.column == 0 then c else { c with line := c.line + 1, column := 0 }
  let lx ← { lx with cursor := c }.closeBlocks
  let flows := lx.flows.map fun f => { f with outer := none }
  return { lx with flows }.push .streamEnd c.pos

/-- Reads a directive. -/
def readDirective (lx : Lexer) : Outcome Lexer := do
  let lx ← lx.closeBlocks
  let (d, c) ← Directive.read lx.cursor
  return { lx with cursor := c }.push (.directive d) lx.cursor.pos

/-- Reads the marker of a document's start or end. Nothing but a comment may follow the
latter on its line. -/
def readMarker (lx : Lexer) (w : Word) : Outcome Lexer := do
  let lx ← lx.closeBlocks
  let pos := lx.cursor.pos
  let lx := { lx with cursor := lx.cursor.skip 3 }.push w pos
  if w == .documentEnd then
    let lx ← lx.skipToLineEnd
    if !endsLine lx.cursor.peek then lx.cursor.flawed .trailingText
    return lx
  return lx

/-! ### Flow collections -/

/-- The number of flow collections that may be open at once. -/
def maxDepth : Nat := 255

/-- Reads the opening bracket of a flow collection. -/
def openFlow (lx : Lexer) (sequence : Bool) : Outcome Lexer := do
  let lx := lx.saveCandidate.rollValue
  let c := lx.cursor
  if maxDepth ≤ lx.flows.length then c.flawed .tooDeep
  let lx := { lx with
    flows := ⟨lx.candidate⟩ :: lx.flows
    candidate := none
    keyAllowed := true
    braced := lx.braced || !sequence
    cursor := c.skip 1 }
  let lx ← lx.skipToLineEnd
  return lx.push (if sequence then .flowSequenceStart else .flowMappingStart) c.pos

/-- Closes the single pair that is open. -/
def closePair (lx : Lexer) : Lexer :=
  if lx.pair then { lx with pair := false, braced := false }.push .flowMappingEnd lx.cursor.pos
  else lx

/-- Reads the closing bracket of a flow collection. -/
def closeFlow (lx : Lexer) (sequence : Bool) : Outcome Lexer := do
  let lx := (← lx.dropCandidate).closePair
  let lx := match lx.flows with
    | f :: outer => { lx with flows := outer, candidate := f.outer }
    | [] => lx
  let c := lx.cursor
  let lx ← { lx with keyAllowed := false, cursor := c.skip 1 }.skipToLineEnd
  let lx := if lx.inBlock then lx else { lx with adjacent := lx.cursor.index }
  return lx.push (if sequence then .flowSequenceEnd else .flowMappingEnd) c.pos

/-- Reads the comma between two entries of a flow collection. -/
def readFlowEntry (lx : Lexer) : Outcome Lexer := do
  let lx ← lx.dropCandidate
  let lx := { lx with keyAllowed := true }.closePair
  let c := lx.cursor
  let lx ← { lx with cursor := c.skip 1 }.skipToLineEnd
  return lx.push .flowEntry c.pos

/-! ### Indicators of entries, keys and values -/

/-- Reads the dash of a block sequence. Its token stands where the entry starts, or at
the end of the line when the entry starts below. -/
def readBlockEntry (lx : Lexer) : Outcome Lexer := do
  let c := lx.cursor
  if !lx.inBlock || !lx.keyAllowed then c.flawed .misplacedIndicator
  let lx := lx.roll c.column .blockSequenceStart c.pos none
  let (blanks, next) ← (c.skip 1).skipToLineEnd
  if blanks.tab && next.peek == '-' && endsWord (next.ahead 1) then
    next.flawed .tabAfterIndicator
  let lx := { lx with cursor := next }
  let lx := if isBreak next.peek || isFlow next.peek then lx.rollValue else lx
  let lx ← lx.dropCandidate
  return { lx with keyAllowed := true }.push .blockEntry next.pos

/-- Passes one space, line break or comment behind a question mark; done elsewhere. -/
def skipAfterKey (s : Bool × Lexer) : Outcome (Bool × Lexer ⊕ Bool × Lexer) :=
  let (parted, lx) := s
  let c := lx.cursor
  if c.peek == ' ' then .ok (.inl (true, { lx with cursor := c.skipBlank }))
  else if isBreak c.peek then
    .ok (.inl (true,
      { lx with cursor := c.skipBreak, keyAllowed := lx.keyAllowed || lx.inBlock }))
  else if c.peek == '#' then .ok (.inl (parted, { lx with cursor := c.skipLine }))
  else .ok (.inr (parted, lx))

/-- Reads the question mark of an explicit key. -/
def readKey (lx : Lexer) : Outcome Lexer := do
  let c := lx.cursor
  if lx.inBlock && !lx.keyAllowed then c.flawed .misplacedIndicator
  let lx := if lx.inBlock then lx.roll c.column .blockMappingStart c.pos none
    else { lx with braced := true }
  let lx ← lx.dropCandidate
  let lx := { lx with keyAllowed := lx.inBlock, cursor := c.skip 1 }
  let (parted, lx) ← Cursor.loop (fun (_, lx) => lx.cursor) skipAfterKey (false, lx)
  if !parted || lx.cursor.peek == '\t' then lx.cursor.flawed .tabAfterIndicator
  return lx.push .key c.pos

/-- Passes the colon of a value. A tab directly behind it is a flaw before a name. -/
def skipColon (c : Cursor) : Outcome Cursor := do
  let c := c.skip 1
  if c.peek != '\t' then return c
  let (blanks, next) ← c.skipToLineEnd
  if !blanks.space && isName next.peek then next.flawed .tabAfterIndicator
  return next

/-- Reads the colon of a value. The candidate before it, if there is one, turns out to be
a key; a pair that stands alone in a flow sequence is a mapping of its own. -/
def readValue (lx : Lexer) : Outcome Lexer := do
  let c := lx.cursor
  let single := !lx.braced && !lx.inBlock
  let next ← skipColon c
  let lx := { lx with pair := single, cursor := next }
  match lx.candidate with
  | some k =>
    if single && k.start.line < c.line then c.flawed .misplacedIndicator
    let lx := lx.insert k.token .key k.start.pos
    let lx := if single then lx.insert k.token .flowMappingStart next.pos else lx
    let lx := (lx.roll k.start.column .blockMappingStart c.pos (some k.token)).rollValue
    return { lx with candidate := none, keyAllowed := false }.push .value c.pos
  | none =>
    let lx := if single then lx.push .flowMappingStart next.pos else lx
    if lx.inBlock && !lx.keyAllowed then c.flawed .misplacedIndicator
    let lx := (lx.roll c.column .blockMappingStart c.pos none).rollValue
    return { lx with keyAllowed := lx.inBlock }.push .value c.pos

/-! ### Properties and scalars -/

/-- Starts a node on this line: it may be a key, and no further key starts behind it. -/
def startNode (lx : Lexer) : Lexer := { lx.saveCandidate with keyAllowed := false }

/-- Reads an anchor or an alias. -/
def readAnchored (lx : Lexer) (word : String → Word) : Outcome Lexer := do
  let (name, c) ← readAnchor lx.cursor
  return { lx.startNode with cursor := c }.push (word name) lx.cursor.pos

/-- Reads a tag. -/
def readTag (lx : Lexer) : Outcome Lexer := do
  let (tag, c) ← Tag.read (!lx.inBlock) lx.cursor
  return { lx.startNode with cursor := c }.push (.tag tag) lx.cursor.pos

/-- Reads a block scalar. -/
def readBlock (lx : Lexer) (style : ScalarStyle) : Outcome Lexer := do
  let lx := { lx.saveCandidate with keyAllowed := true }.unrollValue
  let (scalar, c) ← Block.read (style == .folded) lx.indent lx.cursor
  return { lx with cursor := c }.push (.scalar scalar.text style) scalar.pos

/-- Only the end of the line, a comment, a colon, or an indicator of an open flow
collection may follow a quoted scalar. -/
def mayFollowQuoted (lx : Lexer) (start c : Cursor) : Bool :=
  endsLine c.peek
    || (c.peek == ':' && (!lx.inBlock || start.line == c.line))
    || (!lx.inBlock && c.peek ∈ [',', ']', '\x7d'])

/-- Reads a quoted scalar. -/
def readQuoted (lx : Lexer) (style : Quoted.Style) : Outcome Lexer := do
  let lx := lx.startNode
  let start := lx.cursor
  let (text, c) ← Quoted.read style lx.indent start
  let (_, c) ← c.skipToLineEnd
  if !lx.mayFollowQuoted start c then c.flawed .trailingText
  let lx ← { lx with cursor := c }.skipToToken
  return { lx with adjacent := lx.cursor.index }.push (.scalar text .quoted) start.pos

/-- Reads a plain scalar. A key may follow when the scalar ends with a line break. -/
def readPlain (lx : Lexer) : Outcome Lexer := do
  let lx := lx.startNode.unrollValue
  let start := lx.cursor
  let (text, c) ← Plain.read ⟨!lx.inBlock, lx.indent + 1⟩ start
  return { lx with cursor := c, keyAllowed := c.fresh }.push (.scalar text .plain) start.pos

/-! ### Handing out tokens -/

/-- Reads the token whose first character is at the cursor. -/
def readToken (lx : Lexer) : Outcome Lexer :=
  let c := lx.cursor
  let x := c.peek
  let y := c.ahead 1
  let inFlow := !lx.inBlock
  if x == '[' then lx.openFlow true
  else if x == '\x7b' then lx.openFlow false
  else if x == ']' then lx.closeFlow true
  else if x == '\x7d' then lx.closeFlow false
  else if x == ',' then lx.readFlowEntry
  else if x == '-' && endsWord y then lx.readBlockEntry
  else if x == '?' && endsWord y then lx.readKey
  else if x == ':' && (endsWord y || (inFlow && (isFlow y || c.index == lx.adjacent))) then
    lx.readValue
  else if x == '*' then lx.readAnchored .alias
  else if x == '&' then lx.readAnchored .anchor
  else if x == '!' then lx.readTag
  else if x == '|' && lx.inBlock then lx.readBlock .literal
  else if x == '>' && lx.inBlock then lx.readBlock .folded
  else if x == '\'' then lx.readQuoted .single
  else if x == '"' then lx.readQuoted .double
  else if x ∈ ['%', '@', '\x60'] then c.flawed .reservedCharacter
  else lx.readPlain

/-- Reads one more token, and before it the ends of the collections it is not part of. -/
def fetch (lx : Lexer) : Outcome Lexer := do
  let lx ← lx.skipToToken
  let lx ← lx.dropStale
  let lx := lx.unroll lx.cursor.column
  let c := lx.cursor
  if isEnd c.peek then lx.readEnd
  else if c.column == 0 && c.peek == '%' then lx.readDirective
  else if c.atDocumentStart then lx.readMarker .documentStart
  else if c.atDocumentEnd then lx.readMarker .documentEnd
  else if c.column < lx.indent then c.flawed .lessIndented
  else lx.readToken

/-- Reads tokens until the next one to hand out is settled. -/
def settle (lx : Lexer) : Outcome (Lexer ⊕ Token × Lexer) :=
  match lx.tokens[lx.taken]? with
  | none => return .inl (← lx.fetch)
  | some t => do
    let lx ← lx.dropStale
    if lx.waits then return .inl (← lx.fetch)
    return .inr (t, { lx with taken := lx.taken + 1 })

/-- Hands out the next token. -/
def next (lx : Lexer) : Outcome (Token × Lexer) := Cursor.loop Lexer.cursor settle lx

/-- Hands out tokens behind those that are out already, at most so many. -/
def handOut : Nat → Lexer → Array Token → TokenStream
  | 0, lx, out => ⟨out.toList, ⟨.unfinished, lx.cursor.pos⟩⟩
  | n + 1, lx, out =>
    match lx.next with
    | .error stop => ⟨out.toList, stop⟩
    | .ok (t, lx) =>
      if t.value == .streamEnd then ⟨(out.push t).toList, ⟨.unfinished, t.pos⟩⟩
      else handOut n lx (out.push t)

end Lexer

/-- The tokens of a text. No character yields more than a few of them. -/
def tokenStream (text : String) : TokenStream :=
  let lx := Lexer.ofString text
  Lexer.handOut (8 * (lx.cursor.size + 2)) lx #[]

end WorkflowTree.Yaml

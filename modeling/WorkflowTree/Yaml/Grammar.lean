import WorkflowTree.Yaml.Event

/-!
# The grammar of nodes

Events follow from tokens by a grammar whose unfinished parts form a stack of goals. Each
step meets the topmost goal: it looks at the next token, gives at most one event, and
puts the goals that are left in its place. Where a node was left out, the event of an
absent scalar stands at the next token.

The versions of YAML share this grammar but for a few points, which make up a `Dialect`.
-/

namespace WorkflowTree.Yaml

/-! ### Goals -/

/-- A part of a document that is to be read. -/
inductive Goal
  /-- A node. In a block it may be a block collection, and as a part of a block mapping
  also a sequence at the mapping's own indentation. -/
  | node (block unindented : Bool)
  /-- The next key of a block mapping, or its end. -/
  | blockKey
  /-- The value of a key of a block mapping. -/
  | blockValue
  /-- The next entry of a block sequence, or its end. -/
  | blockEntry
  /-- The next entry of a sequence at its mapping's indentation, or its end. -/
  | unindentedEntry
  /-- The next key of a flow mapping, or its end. -/
  | flowKey (first : Bool)
  /-- The value of a key of a flow mapping. -/
  | flowValue
  /-- The absent value of a key of a flow mapping that is no pair. -/
  | flowAbsent
  /-- The next entry of a flow sequence, or its end. -/
  | flowEntry (first : Bool)
  /-- The key of a pair in a flow sequence that a question mark starts. -/
  | pairKey
  /-- The value of such a pair. -/
  | pairValue
  /-- The end of such a pair. -/
  | pairEnd

/-- What the versions of YAML do not agree on. -/
structure Dialect where
  /-- A mapping may have the word for a value where that for a key is missing. -/
  keyless : Bool
  /-- The number of an anchor is free for others once its name is set again. -/
  renumbers : Bool

/-- The state of reading a document. -/
structure Reader where
  input : TokenStream
  dialect : Dialect
  /-- What the declared tag handles stand for. -/
  handles : List (String × String) := []
  /-- The numbers of the anchors that are set, the latest first. -/
  anchors : List (String × Nat) := []
  /-- What is left to read, the next part first. -/
  goals : List Goal := []
  /-- The events so far. -/
  events : Array Mark := #[]

namespace Reader

/-- Looks at the next token. -/
def peek (r : Reader) : Outcome Token :=
  match r.input.tokens with
  | t :: _ => .ok t
  | [] => .error r.input.stop

/-- Passes the next token. -/
def drop (r : Reader) : Reader := { r with input.tokens := r.input.tokens.tail }

/-- Adds an event. -/
def emit (r : Reader) (e : Event) (pos : Position) : Reader :=
  { r with events := r.events.push ⟨e, pos⟩ }

/-- Puts goals on top of the stack. -/
def expect (r : Reader) (goals : List Goal) : Reader := { r with goals := goals ++ r.goals }

/-- The failure to find what the grammar asks for. -/
def unexpected {α : Type} (t : Token) (flaw : Flaw) : Outcome α := .error ⟨flaw, t.pos⟩

/-! ### Properties of nodes -/

/-- Gives a name to the next anchor number. -/
def setAnchor (r : Reader) (name : String) : Nat × Reader :=
  let id := r.anchors.length
  let others := if r.dialect.renumbers then r.anchors.filter (·.1 != name) else r.anchors
  (id, { r with anchors := (name, id) :: others })

/-- The full name of a tag, whose handle has to be declared. -/
def fullName (r : Reader) (tag : Tag) (pos : Position) : Outcome String :=
  match (r.handles ++ Tag.handles).lookup tag.handle with
  | some start => .ok (start ++ tag.suffix)
  | none => .error ⟨.undeclaredHandle, pos⟩

/-- The properties of a node. -/
structure Properties where
  anchor : Option Nat := none
  tag : Option String := none

/-- A node without properties has to be written. -/
def Properties.isEmpty (p : Properties) : Bool := p.anchor.isNone && p.tag.isNone

/-- Reads an anchor and a tag, in either order. -/
def properties (r : Reader) : Outcome (Properties × Reader) := do
  let t ← r.peek
  match t.value with
  | .anchor name =>
    let (id, r) := r.drop.setAnchor name
    let u ← r.peek
    match u.value with
    | .tag tag => return (⟨some id, some (← r.fullName tag u.pos)⟩, r.drop)
    | _ => return (⟨some id, none⟩, r)
  | .tag tag =>
    let tag ← r.fullName tag t.pos
    let r := r.drop
    match (← r.peek).value with
    | .anchor name =>
      let (id, r) := r.drop.setAnchor name
      return (⟨some id, some tag⟩, r)
    | _ => return (⟨none, some tag⟩, r)
  | _ => return ({}, r)

/-! ### Steps -/

/-- Reads a node up to its first event. Behind properties a node may be left out. -/
def node (r : Reader) (block unindented : Bool) : Outcome Reader := do
  let t ← r.peek
  if let .alias name := t.value then
    match r.anchors.lookup name with
    | some id => return r.drop.emit (.alias id) t.pos
    | none => unexpected t .unsetAnchor
  let (p, r) ← r.properties
  let t ← r.peek
  match t.value with
  | .scalar text style => return r.drop.emit (.scalar text style p.tag p.anchor) t.pos
  | .flowSequenceStart =>
    return (r.drop.emit (.sequenceStart p.anchor) t.pos).expect [.flowEntry true]
  | .flowMappingStart =>
    return (r.drop.emit (.mappingStart p.anchor) t.pos).expect [.flowKey true]
  | w =>
    if block && w == .blockSequenceStart then
      return (r.drop.emit (.sequenceStart p.anchor) t.pos).expect [.blockEntry]
    if block && w == .blockMappingStart then
      return (r.drop.emit (.mappingStart p.anchor) t.pos).expect [.blockKey]
    if unindented && w == .blockEntry then
      return (r.emit (.sequenceStart p.anchor) t.pos).expect [.unindentedEntry]
    if p.isEmpty then unexpected t .expectedNode
    return r.emit (.scalar "" .plain p.tag p.anchor) t.pos

/-- Reads a node unless one of these words shows that it was left out. -/
def nodeUnless (r : Reader) (absent : List Word) (node : Goal) : Outcome Reader := do
  let t ← r.peek
  if absent.contains t.value then return r.emit .absent t.pos
  return r.expect [node]

/-- Reads the end of a collection. -/
def close (r : Reader) (pos : Position) : Reader := r.emit .collectionEnd pos

/-- The words that show that a part of a block mapping was left out. -/
def blockPartEnds : List Word := [.key, .value, .blockEnd]

/-- The words that show that a part of a flow mapping was left out. -/
def flowPartEnds : List Word := [.value, .flowEntry, .flowMappingEnd]

/-- Passes the comma before an entry of a flow collection that is not the first. -/
def separator (r : Reader) (first : Bool) : Outcome Reader := do
  if first then return r
  let t ← r.peek
  if t.value == .flowEntry then return r.drop
  unexpected t .expectedSeparator

/-- Reads a key of a flow mapping, or the mapping's end. -/
def flowKey (r : Reader) (first : Bool) : Outcome Reader := do
  let t ← r.peek
  if t.value == .flowMappingEnd then return r.drop.close t.pos
  let r ← r.separator first
  let u ← r.peek
  match u.value with
  | .key => (r.drop.expect [.flowValue, .flowKey false]).nodeUnless flowPartEnds (.node false false)
  | .value => do
    if !r.dialect.keyless then unexpected u .expectedKey
    return (r.emit .absent u.pos).expect [.flowValue, .flowKey false]
  | .flowMappingEnd => return r.drop.close t.pos
  | _ => return r.expect [.node false false, .flowAbsent, .flowKey false]

/-- Reads the value of a key of a flow mapping. An absent value stands at its colon. -/
def flowValue (r : Reader) : Outcome Reader := do
  let t ← r.peek
  if t.value != .value then return r.emit .absent t.pos
  let r := r.drop
  let u ← r.peek
  if u.value == .flowEntry || u.value == .flowMappingEnd then return r.emit .absent t.pos
  return r.expect [.node false false]

/-- Reads an entry of a flow sequence, or the sequence's end. -/
def flowEntry (r : Reader) (first : Bool) : Outcome Reader := do
  let t ← r.peek
  if t.value == .flowSequenceEnd then return r.drop.close t.pos
  let r ← r.separator first
  let u ← r.peek
  match u.value with
  | .flowSequenceEnd => return r.drop.close u.pos
  | .key =>
    return (r.drop.emit (.mappingStart none) u.pos).expect
      [.pairKey, .pairValue, .pairEnd, .flowEntry false]
  | _ => return r.expect [.node false false, .flowEntry false]

/-- Reads the key of a pair in a flow sequence. A word that shows its absence is passed. -/
def pairKey (r : Reader) : Outcome Reader := do
  let t ← r.peek
  if [.value, .flowEntry, .flowSequenceEnd].contains t.value then
    return r.drop.emit .absent t.pos
  return r.expect [.node false false]

/-- Reads the value of a pair in a flow sequence. -/
def pairValue (r : Reader) : Outcome Reader := do
  let t ← r.peek
  if t.value != .value then return r.emit .absent t.pos
  r.drop.nodeUnless [.flowEntry, .flowSequenceEnd] (.node false false)

/-- Reads a key of a block mapping, or the mapping's end. -/
def blockKey (r : Reader) : Outcome Reader := do
  let t ← r.peek
  match t.value with
  | .key => (r.drop.expect [.blockValue, .blockKey]).nodeUnless blockPartEnds (.node true true)
  | .value => do
    if !r.dialect.keyless then unexpected t .expectedKey
    return (r.emit .absent t.pos).expect [.blockValue, .blockKey]
  | .blockEnd => return r.drop.close t.pos
  | _ => unexpected t .expectedKey

/-- Reads the value of a key of a block mapping. -/
def blockValue (r : Reader) : Outcome Reader := do
  let t ← r.peek
  if t.value != .value then return r.emit .absent t.pos
  r.drop.nodeUnless blockPartEnds (.node true true)

/-- Reads an entry of a block sequence, or the sequence's end. -/
def blockEntry (r : Reader) : Outcome Reader := do
  let t ← r.peek
  match t.value with
  | .blockEntry =>
    (r.drop.expect [.blockEntry]).nodeUnless [.blockEntry, .blockEnd] (.node true false)
  | .blockEnd => return r.drop.close t.pos
  | _ => unexpected t .expectedEntry

/-- Reads an entry of a sequence at its mapping's indentation, or the sequence's end. -/
def unindentedEntry (r : Reader) : Outcome Reader := do
  let t ← r.peek
  if t.value != .blockEntry then return r.close t.pos
  (r.drop.expect [.unindentedEntry]).nodeUnless (.blockEntry :: blockPartEnds) (.node true false)

/-- Meets one goal. -/
def meet (r : Reader) : Goal → Outcome Reader
  | .node block unindented => r.node block unindented
  | .blockKey => r.blockKey
  | .blockValue => r.blockValue
  | .blockEntry => r.blockEntry
  | .unindentedEntry => r.unindentedEntry
  | .flowKey first => r.flowKey first
  | .flowValue => r.flowValue
  | .flowAbsent => do
    let t ← r.peek
    return r.emit .absent t.pos
  | .flowEntry first => r.flowEntry first
  | .pairKey => r.pairKey
  | .pairValue => r.pairValue
  | .pairEnd => do
    let t ← r.peek
    return r.close t.pos

/-- Meets the topmost goal; done when no goal is left. -/
def step (r : Reader) : Outcome (Reader ⊕ Reader) :=
  match r.goals with
  | [] => .ok (.inr r)
  | g :: goals => do return .inl (← { r with goals }.meet g)

/-- The most steps that it takes to read what is left. Every goal passes a token or is
followed by one that does, and puts no more than a few goals in its place. -/
def bound (r : Reader) : Nat := 16 * (r.input.tokens.length + 2)

/-- Repeats a step until it is done. -/
def repeatStep {σ α : Type} (r : Reader) (step : σ → Outcome (σ ⊕ α)) (s : σ) : Outcome α :=
  repeatUpTo step (fun _ => ⟨.unfinished, r.input.stop.pos⟩) r.bound s

/-- Meets all goals. -/
def run (r : Reader) : Outcome Reader := r.repeatStep step r

end Reader

end WorkflowTree.Yaml

import WorkflowTree.Yaml.Assembly
import WorkflowTree.Yaml.Grammar
import WorkflowTree.Yaml.Lexer

/-!
# Documents

The events and the root node of the first document of a text. Nothing past the token behind
that document is looked at. A flaw of the text comes before a refused alias, wherever the two
stand.
-/

namespace WorkflowTree.Yaml

namespace Reader

/-- A reader at the start of a text. -/
def ofString (text : String) : Reader :=
  { input := tokenStream text, dialect := { keyless := true, renumbers := false } }

/-- Passes the ends of documents that have no start. -/
def dropEnds (r : Reader) : Outcome (Reader ⊕ Token × Reader) := do
  let t ← r.peek
  if t.value == .documentEnd then return .inl r.drop
  return .inr (t, r)

/-- Passes one directive; done at another token. Each directive takes back what the one
before it declared, and the version may be declared once. -/
def directive (s : Bool × Reader) : Outcome (Bool × Reader ⊕ Token × Reader) := do
  let (versioned, r) := s
  let t ← r.peek
  match t.value with
  | .directive (.version _ _) => do
    if versioned then unexpected t .repeatedVersion
    return .inl (true, { r.drop with handles := [] })
  | .directive (.handle name target) =>
    return .inl (versioned, { r.drop with handles := [(name, target)] })
  | .directive .unknown => return .inl (versioned, { r.drop with handles := [] })
  | _ => return .inr (t, r)

/-- Looks at what follows a document, where no directive may stand. -/
def finish (r : Reader) : Outcome Reader := do
  let t ← r.peek
  if let .directive _ := t.value then unexpected t .strayDirective
  return r

/-- Reads the content of a document. -/
def content (r : Reader) : Outcome Reader := do
  (← (r.expect [.node true false]).run).finish

/-- Reads the first document. None is left if the text has no document. -/
def document? (r : Reader) : Outcome (Option Reader) := do
  let (t, r) ← r.repeatStep dropEnds r
  if t.value == .streamEnd then return none
  if !t.value.isDocumentEdge then return some (← r.content)
  let (t, r) ← r.repeatStep directive (false, r)
  if t.value != .documentStart then unexpected t .strayDirective
  let r := r.drop
  let t ← r.peek
  if t.value.isDocumentEdge then return some (← (r.emit .absent t.pos).finish)
  return some (← r.content)

end Reader

/-- The events of the first document of a text. A text without a document has no events. -/
def events (text : String) : Outcome (List Mark) := do
  match ← (Reader.ofString text).document? with
  | none => return []
  | some r => return r.events.toList

/-- A flaw of a text as the cause for which it gives no node. -/
def refused {α : Type} (r : Outcome α) : Except (Located Undecodable) α :=
  r.mapError (Located.map fun f => .malformed f.message)

/-- Decodes the first document of a text. -/
def decode (text : String) : Except (Located Undecodable) Node := do
  assemble (← refused (events text))

end WorkflowTree.Yaml

import WorkflowTree.Yaml.Grammar
import WorkflowTree.Yaml11.Lexer

/-!
# Documents of YAML 1.1

The events of a text that has at most one document. The whole text is read before its first
event is known, so that a flaw anywhere in it is one of the document.
-/

namespace WorkflowTree.Yaml11

open Yaml

/-- The start of a document: its directives and whether one of them gave the version. -/
structure Preamble where
  versioned : Bool := false
  reader : Reader

namespace Preamble

/-- Passes one directive; done behind the marker of the document's start. The version is declared
once, and each handle as well. -/
def step (s : Preamble) : Outcome (Preamble ⊕ Reader) := do
  let t ← s.reader.peek
  let r := s.reader.drop
  match t.value with
  | .directive (.version major minor) => do
    if s.versioned then Reader.unexpected t .repeatedVersion
    if major != 1 || !(minor == 1 || minor == 2) then Reader.unexpected t .unsupportedVersion
    return .inl { versioned := true, reader := r }
  | .directive (.handle name target) => do
    if (r.handles.lookup name).isSome then Reader.unexpected t .repeatedHandle
    return .inl { s with reader := { r with handles := (name, target) :: r.handles } }
  | .directive .unknown => Reader.unexpected t .unknownDirective
  | .documentStart => return .inr r
  | _ => Reader.unexpected t .strayDirective

end Preamble

/-- Reads a document. Where directives or the marker of its start stand in front, the content may
be left out. -/
def document (r : Reader) : Outcome Reader := do
  match (← r.peek).value with
  | .directive _ | .documentStart =>
    let r ← r.repeatStep Preamble.step { reader := r }
    let t ← r.peek
    if t.value.isDocumentEdge then return r.emit .absent t.pos
    (r.expect [.node true false]).run
  | _ => (r.expect [.node true false]).run

/-- Passes the markers of a document's end; done at the end of the text. -/
def endStep (r : Reader) : Outcome (Reader ⊕ Unit) := do
  let t ← r.peek
  match t.value with
  | .documentEnd => return .inl r.drop
  | .streamEnd => return .inr ()
  | _ => Reader.unexpected t .anotherDocument

/-- The events of the only document of a text. A text without a document has no events. -/
def events (text : String) : Outcome (List Mark) := do
  if !text.toList.all Character.isWritable then throw ⟨.forbiddenCharacter, ⟨1, 1⟩⟩
  let input : TokenStream := ⟨← tokens text, ⟨.unfinished, ⟨1, 1⟩⟩⟩
  let r : Reader := { input, dialect := { keyless := false, renumbers := true } }
  if (← r.peek).value == .streamEnd then return []
  let r ← document r
  r.repeatStep endStep r
  return r.events.toList

end WorkflowTree.Yaml11

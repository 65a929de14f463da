import WorkflowTree.Number.Integer
import WorkflowTree.Policy
import WorkflowTree.Reading.Scalar
import WorkflowTree.Yaml11.Document

/-!
# Policies as texts

A policy is written as one document of YAML 1.1: a mapping from the names of settings to their
values. Settings that are not written have their defaults, and a document without content has
nothing but defaults.

A setting is read from the events of its value. An alias stands for the last node of the
document that has the alias's number, wherever that node stands.
-/

namespace WorkflowTree

/-- Why a text is no policy. -/
inductive PolicyFlaw
  /-- The text is not YAML. -/
  | malformed (flaw : Yaml.Flaw)
  /-- The document is not a mapping. -/
  | shape
  /-- A key is not a text. -/
  | malformedKey
  | repeatedKey (key : String)
  | unknownKey (key : String)
  /-- A setting has a value that it cannot have. -/
  | badValue (key : String)
  deriving DecidableEq, Repr

/-- The flaw in words. -/
def PolicyFlaw.message : PolicyFlaw → String
  | malformed flaw => flaw.message
  | shape => "expected a mapping of settings"
  | malformedKey => "expected the name of a setting"
  | repeatedKey name => s!"duplicate field \x60{name}\x60"
  | unknownKey name => s!"unknown field \x60{name}\x60"
  | badValue name => s!"invalid value of \x60{name}\x60"

namespace Policy

/-! ### Scalars -/

/-- A scalar of a policy's text. -/
structure Leaf where
  text : String
  style : Yaml.ScalarStyle
  tag : Option String

namespace Leaf

/-- The tag of YAML's own types with this name. -/
def tagOf (name : String) : String := "tag:yaml.org,2002:" ++ name

/-- The scalar is written plainly, or as a literal block with the tag of a type. -/
def isTyped (l : Leaf) (type : String) : Bool :=
  l.style == .plain || (l.style == .literal && l.tag == some (tagOf type))

/-- The scalar is an empty text that was written plainly, which is to say, not at all. -/
def isAbsent (l : Leaf) : Bool := l.style == .plain && l.text.isEmpty

/-- The text writes that there is no value. -/
def isNull (l : Leaf) : Bool := ["~", "null", "Null", "NULL"].contains l.text

/-- The truth value that a scalar writes. -/
def flag? (l : Leaf) : Option Bool := if l.isTyped "bool" then readTruth? l.text else none

/-- The natural number that a scalar writes. -/
def natural? (l : Leaf) : Option Nat := if l.isTyped "int" then readNatural? l.text else none

/-- The limit that a scalar writes, which may be none. Of plain scalars those without a tag are
none if they are absent or null, and those with the tag of null have to be null. -/
def limit? (l : Leaf) : Option (Option Nat) :=
  let some? : Option (Option Nat) := some <$> l.natural?
  if l.style != .plain then some?
  else match l.tag with
    | none => if l.isAbsent || l.isNull then some none else some?
    | some tag =>
      if tag == tagOf "null" then if l.isNull then some none else none
      else some?

end Leaf

/-! ### Values -/

/-- What is left of a document's events. -/
abbrev Events := List Yaml.Event

/-- The events from the last node on that sets an anchor. -/
def target (document : Events) (anchor : Nat) : Events :=
  match document with
  | [] => []
  | e :: es =>
    match target es anchor with
    | [] => if e.anchor? == some anchor then e :: es else []
    | found => found

/-- The events of the value at the front, where an alias stands for its target. -/
def resolve (document : Events) (es : Events) : Events :=
  match es with
  | .alias anchor :: _ => target document anchor
  | _ => es

/-- The scalar at the front. -/
def leaf? (document es : Events) : Option Leaf :=
  match resolve document es with
  | .scalar text style tag _ :: _ => some ⟨text, style, tag⟩
  | _ => none

/-- The texts up to the end of a sequence, and what follows it. -/
def items? (document : Events) : Events → Option (List String × Events)
  | [] => none
  | .collectionEnd :: es => some ([], es)
  | e :: es => do
    let l ← leaf? document [e]
    let (texts, rest) ← items? document es
    return (l.text :: texts, rest)

/-- The names that a value lists, and what follows it. -/
def names? (document es : Events) : Option (List String × Events) :=
  match es, resolve document es with
  | [], _ => none
  | .sequenceStart _ :: rest, _ => items? document rest
  | _ :: rest, .sequenceStart _ :: items => do
    let (names, _) ← items? document items
    return (names, rest)
  | _ :: rest, _ => do
    let l ← leaf? document es
    if l.isAbsent then some ([], rest) else none

/-! ### Settings -/

/-- Reads the value of a setting and changes it. -/
def set (document : Events) (p : Policy) (key : String) (es : Events) :
    Except PolicyFlaw (Policy × Events) :=
  let change {α : Type} (v : Option (α × Events)) (f : α → Policy) :
      Except PolicyFlaw (Policy × Events) :=
    match v with
    | some (a, rest) => .ok (f a, rest)
    | none => .error (.badValue key)
  let single {α : Type} (read : Leaf → Option α) : Option (α × Events) :=
    ((leaf? document es).bind read).map fun a => (a, es.tail)
  match key with
  | "fail_fast" => change (single Leaf.flag?) fun failFast => { p with failFast }
  | "max_errors" => change (single Leaf.limit?) fun maxErrors => { p with maxErrors }
  | "extra_webhook_events" =>
    change (names? document es) fun extraWebhookEvents => { p with extraWebhookEvents }
  | "allow_unknown_keys" =>
    change (single Leaf.flag?) fun allowUnknownKeys => { p with allowUnknownKeys }
  | _ => .error (.unknownKey key)

/-- Reads the settings up to the end of the mapping, none of them twice. Each takes more than
one event, so that as many steps as there are events are enough. -/
def setAll (document : Events) :
    Nat → Policy → List String → Events → Except PolicyFlaw Policy
  | 0, p, _, _ => .ok p
  | n + 1, p, keys, es =>
    match es with
    | [] | .collectionEnd :: _ => .ok p
    | _ :: value => do
      let some key := leaf? document es | .error .malformedKey
      if keys.contains key.text then .error (.repeatedKey key.text)
      let (p, rest) ← p.set document key.text value
      p.setAll document n (key.text :: keys) rest

/-- The policy that a document writes. -/
def ofEvents (document : Events) : Except PolicyFlaw Policy :=
  match document with
  | [] => .ok {}
  | .mappingStart _ :: es => setAll document es.length {} [] es
  | es =>
    match leaf? document es with
    | some l => if l.isAbsent then .ok {} else .error .shape
    | none => .error .shape

/-! ### Texts -/

/-- The characters that Unicode counts as white space. -/
def isWhiteSpace (c : Char) : Bool :=
  let n := c.toNat
  (9 ≤ n && n ≤ 13) || (0x2000 ≤ n && n ≤ 0x200A) ||
    [0x20, 0x85, 0xA0, 0x1680, 0x2028, 0x2029, 0x202F, 0x205F, 0x3000].contains n

/-- The policy that a text writes. One that is blank has no document. -/
def ofText (text : String) : Except PolicyFlaw Policy :=
  if text.toList.all isWhiteSpace then .ok {}
  else match Yaml11.events text with
    | .error flaw => .error (.malformed flaw.value)
    | .ok events => ofEvents (events.map Located.value)

end Policy

end WorkflowTree

import WorkflowTree.Node
import WorkflowTree.Yaml.Event
import WorkflowTree.Yaml.Undecodable

/-!
# Assembling nodes

An assembly takes the events of a document one by one and builds its root. Collections
that are still open form a stack of frames. A node that sets an anchor is filed under it
once it is complete, and an alias adds a copy of what is filed, up to a number of copied
nodes that is the same for every document. The first alias that cannot be served refuses
the document; later events change nothing.
-/

namespace WorkflowTree.Yaml

/-- The plain texts that write "no value". -/
def isNullText (text : String) : Bool := ["", "~", "null", "Null", "NULL"].contains text

/-- The node of a scalar, where plain texts may write that there is no value. -/
def scalarNode (text : String) (plain : Bool) (pos : Position) : Node :=
  if plain && isNullText text then .null pos else .scalar text plain pos

/-- A collection that is still open: its parts so far, its anchor and its place. -/
inductive Frame
  | sequence (items : Array Node) (anchor : Option Nat) (pos : Position)
  /-- A key without its value waits for the next node. -/
  | mapping (entries : Array (Node × Node)) (key : Option Node) (anchor : Option Nat)
      (pos : Position)

namespace Frame

/-- Adds a complete node to an open collection. -/
def add : Frame → Node → Frame
  | sequence items anchor pos, n => sequence (items.push n) anchor pos
  | mapping entries none anchor pos, n => mapping entries (some n) anchor pos
  | mapping entries (some k) anchor pos, n => mapping (entries.push (k, n)) none anchor pos

/-- The node of a collection that ends here. -/
def node : Frame → Node
  | sequence items _ pos => .sequence items.toList pos
  | mapping entries _ _ pos => .mapping entries.toList pos

/-- The anchor that a collection sets when it ends. -/
def anchor : Frame → Option Nat
  | sequence _ anchor _ | mapping _ _ anchor _ => anchor

end Frame

/-- The state of building a document. -/
structure Assembly where
  /-- The collections that are open, the innermost first. -/
  frames : List Frame := []
  /-- The nodes that set an anchor, the latest first. -/
  anchors : List (Nat × Node) := []
  /-- The number of nodes that aliases copied. -/
  copied : Nat := 0
  /-- The first node that was complete outside of all collections. -/
  root : Option Node := none
  /-- Why the document was refused. -/
  refusal : Option (Located Undecodable) := none

namespace Assembly

/-- Adds a complete node to the innermost open collection, or takes it as the root. -/
def add (a : Assembly) (n : Node) : Assembly :=
  match a.frames with
  | f :: frames => { a with frames := f.add n :: frames }
  | [] => { a with root := a.root <|> some n }

/-- Files a complete node under its anchor. -/
def file (a : Assembly) (anchor : Option Nat) (n : Node) : Assembly :=
  match anchor with
  | some id => { a with anchors := (id, n) :: a.anchors }
  | none => a

/-- Files and adds a complete node. -/
def complete (a : Assembly) (anchor : Option Nat) (n : Node) : Assembly :=
  (a.file anchor n).add n

/-- Adds a copy of the node that an alias refers to. -/
def copy (a : Assembly) (id : Nat) (pos : Position) : Assembly :=
  match a.anchors.lookup id with
  | none => { a with refusal := some ⟨.unknownAnchor, pos⟩ }
  | some n =>
    if a.copied + n.count ≤ maxCopies then { a with copied := a.copied + n.count }.add n
    else { a with refusal := some ⟨.tooManyCopies, pos⟩ }

/-- Takes one event. -/
def take (a : Assembly) (e : Mark) : Assembly :=
  if a.refusal.isSome then a
  else match e.value with
    | .scalar text style _ anchor =>
      a.complete anchor (scalarNode text (style == .plain) e.pos)
    | .alias id => a.copy id e.pos
    | .sequenceStart anchor => { a with frames := .sequence #[] anchor e.pos :: a.frames }
    | .mappingStart anchor => { a with frames := .mapping #[] none anchor e.pos :: a.frames }
    | .collectionEnd =>
      match a.frames with
      | f :: frames => { a with frames }.complete f.anchor f.node
      | [] => a

/-- Takes the events of a document in order. -/
def takeAll (a : Assembly) (events : List Mark) : Assembly :=
  events.foldl take a

/-- What the events so far amount to: a refusal, a root, or nothing. -/
def result (a : Assembly) : Except (Located Undecodable) Node :=
  match a.refusal, a.root with
  | some r, _ => .error r
  | none, some n => .ok n
  | none, none => .error ⟨.emptyDocument, ⟨1, 1⟩⟩

@[simp] theorem takeAll_nil (a : Assembly) : takeAll a [] = a := rfl

@[simp] theorem takeAll_cons (a : Assembly) (e : Mark) (es : List Mark) :
    takeAll a (e :: es) = takeAll (take a e) es := rfl

theorem takeAll_append (a : Assembly) (es fs : List Mark) :
    takeAll a (es ++ fs) = takeAll (takeAll a es) fs := List.foldl_append ..

theorem take_of_refusal {a : Assembly} {r : Located Undecodable} (h : a.refusal = some r)
    (e : Mark) : take a e = a := by
  simp [take, h]

theorem takeAll_of_refusal {a : Assembly} {r : Located Undecodable} (h : a.refusal = some r)
    (es : List Mark) : takeAll a es = a := by
  induction es with
  | nil => rfl
  | cons e es ih => rw [takeAll_cons, take_of_refusal h, ih]

end Assembly

/-- The root node of a document that consists of these events. -/
def assemble (events : List Mark) : Except (Located Undecodable) Node :=
  (Assembly.takeAll {} events).result

end WorkflowTree.Yaml

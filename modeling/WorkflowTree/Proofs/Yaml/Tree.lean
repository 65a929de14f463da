import WorkflowTree.Node
import WorkflowTree.Yaml.Cursor
import WorkflowTree.Yaml.Event
import WorkflowTree.Yaml.Undecodable

/-!
# Trees with anchors and aliases

What a document says before its aliases are replaced.  A tree has two readings that know
nothing of each other:

* `Tree.events` writes it down as the stream of events that its document gives, depth first;
* `Tree.expand` replaces its aliases by recursion, and gives the node that the document stands
  for.  What has to be known of the parts before is an `Expansion`: the node that was completed
  last under each anchor, and the number of nodes that aliases have copied.
-/

namespace WorkflowTree.Yaml

/-- Where an event was found, as a cursor counts: lines from one, columns from zero. -/
structure Spot where
  line : Nat
  column : Nat
  deriving DecidableEq, Repr

/-- The place of a spot.  Columns of places count from one. -/
def Spot.pos (s : Spot) : Position := ⟨s.line, s.column + 1⟩

theorem Cursor.pos_eq (c : Cursor) : c.pos = Spot.pos ⟨c.line, c.column⟩ := rfl

/-- A document before its aliases are replaced.  Collections have two spots, those of their
first and of their last event. -/
inductive Tree
  | scalar (text : String) (style : ScalarStyle) (tag : Option String) (anchor : Option Nat)
      (spot : Spot)
  | alias (id : Nat) (spot : Spot)
  | sequence (items : List Tree) (anchor : Option Nat) (spot stop : Spot)
  | mapping (entries : List (Tree × Tree)) (anchor : Option Nat) (spot stop : Spot)

/-- What the parts of a document before a tree amount to. -/
structure Expansion where
  /-- The node that was completed last under an anchor. -/
  completed : Nat → Option Node := fun _ => none
  /-- The number of nodes that aliases copied. -/
  copied : Nat := 0

namespace Expansion

/-- A node is complete, and from here on stands for its anchor. -/
def complete (x : Expansion) (anchor : Option Nat) (n : Node) : Expansion :=
  { x with completed := fun id => if anchor = some id then some n else x.completed id }

end Expansion

namespace Tree

/-! ### Events -/

mutual

/-- The events of a tree, in the order in which its document gives them. -/
def events : Tree → List Mark
  | .scalar text style tag anchor spot => [⟨.scalar text style tag anchor, spot.pos⟩]
  | .alias id spot => [⟨.alias id, spot.pos⟩]
  | .sequence items anchor spot stop =>
    ⟨.sequenceStart anchor, spot.pos⟩ :: (itemEvents items ++ [⟨.collectionEnd, stop.pos⟩])
  | .mapping entries anchor spot stop =>
    ⟨.mappingStart anchor, spot.pos⟩ :: (entryEvents entries ++ [⟨.collectionEnd, stop.pos⟩])

/-- The events of the items of a sequence. -/
def itemEvents : List Tree → List Mark
  | [] => []
  | t :: ts => t.events ++ itemEvents ts

/-- The events of the entries of a mapping: of each one first the key and then the value. -/
def entryEvents : List (Tree × Tree) → List Mark
  | [] => []
  | (k, v) :: es => k.events ++ (v.events ++ entryEvents es)

end

/-! ### Nodes -/

/-- The node of a scalar.  Five texts mean that there is no value, if they are written plainly. -/
def leaf (text : String) (style : ScalarStyle) (pos : Position) : Node :=
  if style = .plain ∧ text ∈ ["", "~", "null", "Null", "NULL"] then .null pos
  else .scalar text (style == .plain) pos

mutual

/-- The node that a tree stands for, or the first alias that cannot be replaced: no node is
complete under its anchor, or the copies become too many. -/
def expand : Tree → Expansion → Except (Located Undecodable) (Node × Expansion)
  | .scalar text style _ anchor spot, x =>
    .ok (leaf text style spot.pos, x.complete anchor (leaf text style spot.pos))
  | .alias id spot, x =>
    match x.completed id with
    | none => .error ⟨.unknownAnchor, spot.pos⟩
    | some n =>
      if 100000 < x.copied + n.count then .error ⟨.tooManyCopies, spot.pos⟩
      else .ok (n, { x with copied := x.copied + n.count })
  | .sequence items anchor spot _, x => do
    let (ns, x) ← expandItems items x
    return (.sequence ns spot.pos, x.complete anchor (.sequence ns spot.pos))
  | .mapping entries anchor spot _, x => do
    let (es, x) ← expandEntries entries x
    return (.mapping es spot.pos, x.complete anchor (.mapping es spot.pos))

/-- The nodes of the items of a sequence, in order. -/
def expandItems : List Tree → Expansion → Except (Located Undecodable) (List Node × Expansion)
  | [], x => return ([], x)
  | t :: ts, x => do
    let (n, x) ← t.expand x
    let (ns, x) ← expandItems ts x
    return (n :: ns, x)

/-- The nodes of the entries of a mapping, in order, repeated keys included. -/
def expandEntries : List (Tree × Tree) → Expansion →
    Except (Located Undecodable) (List (Node × Node) × Expansion)
  | [], x => return ([], x)
  | (k, v) :: es, x => do
    let (k, x) ← k.expand x
    let (v, x) ← v.expand x
    let (ns, x) ← expandEntries es x
    return ((k, v) :: ns, x)

end

end Tree

end WorkflowTree.Yaml

import WorkflowTree.Node
import WorkflowTree.Number.Decimal
import WorkflowTree.Policy

/-!
# Shapes of nodes

The grammar of workflow files is made of few shapes: leaves, sequences whose items have one
shape, and sections.  A section is a mapping whose keys are texts, each of them once.

* A *free* section (`Node.IsFree`) may have any keys.  Each value has the shape that its key
  asks for.
* A *fixed* section (`Node.IsFixed`) has only keys of a list, unless the policy passes over
  unknown keys.  What stands under them is said key by key, by `Node.Allows` for a key that
  may be left out and by `Node.Requires` for one that may not.

No definition here looks at a reader or at its problems.
-/

namespace WorkflowTree.Node

/-! ### Leaves -/

/-- A text, written in any way.  No value is not a text. -/
def IsText (n : Node) : Prop := ∃ text, n.text? = some text

/-- A text that is one of these words, written in any way. -/
def IsWord (words : List String) (n : Node) : Prop := ∃ text, n.text? = some text ∧ text ∈ words

/-- A text that is written without quotes and has a property. -/
def IsPlain (p : String → Prop) (n : Node) : Prop := ∃ text, n.plain? = some text ∧ p text

/-- A truth value. -/
def IsFlag : Node → Prop :=
  IsPlain fun text => text ∈ ["true", "True", "TRUE", "false", "False", "FALSE"]

/-- An integer of 64 bits. -/
def IsCount : Node → Prop := IsPlain fun text => ∃ i, readInteger? text = some i

/-- A finite number. -/
def IsMinutes : Node → Prop := IsPlain fun text => ∃ x, readNumber? text = some x

/-! ### Sequences -/

/-- A sequence all of whose items have a shape. -/
def IsSequenceOf (item : Node → Prop) (n : Node) : Prop :=
  ∃ items, n.items? = some items ∧ ∀ i ∈ items, item i

/-- A sequence of texts, or one text in its place. -/
def IsTextOrTexts (n : Node) : Prop := n.IsText ∨ n.IsSequenceOf IsText

/-! ### Sections -/

/-- A mapping whose keys are texts, each of them once. -/
def IsSection (n : Node) : Prop :=
  ∃ entries, n.entries? = some entries ∧ (∀ e ∈ entries, e.1.IsText) ∧
    (entries.map fun e => e.1.text?).Nodup

/-- A section with any keys, whose values have the shapes that their keys ask for. -/
def IsFree (value : String → Node → Prop) (n : Node) : Prop :=
  n.IsSection ∧ ∀ key v, n.get? key = some v → value key v

/-- A section with keys of a list, or with others that the policy passes over. -/
def IsFixed (policy : Policy) (keys : List String) (n : Node) : Prop :=
  n.IsSection ∧ ∀ key v, n.get? key = some v → key ∈ keys ∨ policy.allowUnknownKeys = true

/-- The value under a key has a shape, if the key is there. -/
def Allows (n : Node) (key : String) (shape : Node → Prop) : Prop :=
  ∀ v, n.get? key = some v → shape v

/-- The key is there, and the value under it has a shape. -/
def Requires (n : Node) (key : String) (shape : Node → Prop) : Prop :=
  ∃ v, n.get? key = some v ∧ shape v

/-- The key is there. -/
def Has (n : Node) (key : String) : Prop := ∃ v, n.get? key = some v

/-- Assignments of texts to any keys. -/
def IsAssignments : Node → Prop := IsFree fun _ => IsText

theorem requires_iff {n : Node} {key : String} {shape : Node → Prop} :
    n.Requires key shape ↔ n.Has key ∧ n.Allows key shape := by
  constructor
  · rintro ⟨v, hv, hs⟩
    refine ⟨⟨v, hv⟩, ?_⟩
    intro w hw
    exact Option.some.inj (hv.symm.trans hw) ▸ hs
  · rintro ⟨⟨v, hv⟩, hs⟩
    exact ⟨v, hv, hs v hv⟩

end WorkflowTree.Node

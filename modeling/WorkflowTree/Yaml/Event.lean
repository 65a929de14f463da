import WorkflowTree.Yaml.Token

/-!
# Events

A document is a stream of events: a scalar or an alias on its own, and for each
collection its start, the events of its parts in order, and its end. Anchors are told
apart by numbers, so that a name may be set again.
-/

namespace WorkflowTree.Yaml

/-- One step of a document. -/
inductive Event
  /-- A scalar, which may have a tag and set an anchor. -/
  | scalar (text : String) (style : ScalarStyle) (tag : Option String) (anchor : Option Nat)
  /-- A reference to the node that set an anchor. -/
  | alias (anchor : Nat)
  | sequenceStart (anchor : Option Nat)
  | mappingStart (anchor : Option Nat)
  | collectionEnd
  deriving DecidableEq, Repr

/-- An event and the place of the token it comes from. -/
abbrev Mark := Located Event

namespace Event

/-- The scalar that stands for a node that was left out. -/
def absent : Event := .scalar "" .plain none none

/-- The anchor that the node sets which starts with an event. -/
def anchor? : Event → Option Nat
  | .scalar _ _ _ anchor | .sequenceStart anchor | .mappingStart anchor => anchor
  | .alias _ | .collectionEnd => none

end Event

end WorkflowTree.Yaml

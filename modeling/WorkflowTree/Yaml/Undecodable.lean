/-!
# Undecodable texts

The causes for which a text gives no node.
-/

namespace WorkflowTree.Yaml

/-- The most nodes that the aliases of a document may copy. -/
def maxCopies : Nat := 100000

/-- Why a text gives no node. -/
inductive Undecodable
  /-- The text is not YAML, for a reason given in words. -/
  | malformed (reason : String)
  /-- The text has no document. -/
  | emptyDocument
  /-- The aliases copy more nodes than are allowed. -/
  | tooManyCopies
  /-- An alias refers to a node that is not complete where the alias stands. -/
  | unknownAnchor
  deriving DecidableEq, Repr

/-- The cause in words. -/
def Undecodable.message : Undecodable → String
  | malformed reason => reason
  | emptyDocument => "document is empty"
  | tooManyCopies => s!"aliases expand to more than {maxCopies} nodes"
  | unknownAnchor => "alias refers to an unknown anchor"

end WorkflowTree.Yaml

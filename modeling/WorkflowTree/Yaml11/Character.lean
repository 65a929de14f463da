import WorkflowTree.Yaml.Character

/-!
# Character classes of YAML 1.1

The classes in which YAML 1.1 is stricter or laxer than its successor: which characters may be
written at all, in the names of anchors, and in tags.
-/

namespace WorkflowTree.Yaml11.Character

open Yaml.Character (isName)

/-- A character that may be written: control characters may not, but for tabs and line breaks,
and neither may surrogates and the two numbers that are no characters. -/
def isWritable (c : Char) : Bool :=
  let n := c.toNat
  [0x09, 0x0A, 0x0D, 0x85].contains n || (0x20 ≤ n && n ≤ 0x7E) || (0xA0 ≤ n && n ≤ 0xFFFD) ||
    0x10000 ≤ n

/-- A character that may be attached to the name of an anchor or an alias. -/
def mayFollowName (c : Char) : Bool := "?:,]\x7d%@\x60".toList.contains c

/-- A character of a tag, the percent sign of an escape included. -/
def isTag (c : Char) : Bool := isName c || ";/?:@&=+$.!~*'()%".toList.contains c

/-- A character of a tag that is written in full. -/
def isUri (c : Char) : Bool := isTag c || ",[]".toList.contains c

/-- A character that no plain scalar starts with: the indicators of YAML. -/
def isIndicator (c : Char) : Bool := "-?:,[]\x7b\x7d#&*!|>'\"%@\x60".toList.contains c

end WorkflowTree.Yaml11.Character

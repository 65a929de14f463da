import WorkflowTree.Number.Decimal
import WorkflowTree.Reading.Section
import WorkflowTree.Workflow.Step

/-!
# Scalars

Reading the leaves of a workflow tree. A text may be written in any way; a truth value or a
number counts only when it is written without quotes.
-/

namespace WorkflowTree

/-- The truth value that a word writes. -/
def readTruth? (s : String) : Option Bool :=
  if ["true", "True", "TRUE"].contains s then some true
  else if ["false", "False", "FALSE"].contains s then some false
  else none

/-- Reads a text. -/
def readText (what : String) (n : Node) : Checked (Option Text) :=
  match n.leaf? with
  | some t => pure (some t)
  | none => mismatch n what "a string"

/-- Reads a scalar that is written without quotes. -/
def readPlain {α : Type} (read? : String → Option α) (expected what : String) (n : Node) :
    Checked (Option (Located α)) :=
  match n.plain?.bind read? with
  | some a => pure (some ⟨a, n.pos⟩)
  | none => mismatch n what expected

/-- Reads a truth value. -/
def readFlag : String → Node → Checked (Option Flag) :=
  readPlain readTruth? "a boolean (true or false)"

/-- Reads an integer. -/
def readCount : String → Node → Checked (Option Count) := readPlain readInteger? "an integer"

/-- Reads a number of minutes. -/
def readMinutes : String → Node → Checked (Option Minutes) := readPlain readNumber? "a number"

/-- Reads a sequence of texts. -/
def readTexts (what : String) (n : Node) : Checked (Option (List Text)) :=
  match n.items? with
  | some items => some <$> Checked.collect (items.map (readText s!"element of {what}"))
  | none => mismatch n what "a sequence of strings"

/-- Reads a text, or a sequence of texts. -/
def readTextOrTexts (what : String) (n : Node) : Checked (Option (List Text)) :=
  match n with
  | .scalar text _ pos => pure (some [⟨text, pos⟩])
  | .sequence _ _ => readTexts what n
  | _ => mismatch n what "a string or a sequence of strings"

/-- Reads an assignment of a text to a key. -/
def Assignment.read (what : String) (e : Entry) : Checked (Option Assignment) :=
  (Option.map fun value => ⟨e.key, value⟩) <$> readText what e.value

end WorkflowTree

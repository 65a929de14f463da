import WorkflowTree.Reading.Scalar
import WorkflowTree.Workflow.Strategy

/-!
# Reading strategies

In a matrix every key is the name of a row, except for the two that list the runs that are
added and left out.
-/

namespace WorkflowTree

namespace Matrix

/-- The key of the runs that are added. -/
def includeKey : String := "include"

/-- The key of the runs that are left out. -/
def excludeKey : String := "exclude"

/-- What an entry of a matrix may be. -/
inductive Part
  | row (r : MatrixRow)
  | combinations (cs : List Assignments)

namespace Part

/-- The row, if the part is one. -/
def row? : Part → Option MatrixRow
  | row r => some r
  | combinations _ => none

/-- The runs that the part lists. -/
def runs : Part → List Assignments
  | row _ => []
  | combinations cs => cs

end Part

/-- Reads one run that is added or left out. -/
def readCombination (what : String) (n : Node) : Checked (Option Assignments) :=
  Section.within s!"element of {what}" n fun s => some <$> s.collect fun e =>
    Assignment.read s!"value of \"{e.key.value}\" in {what}" e

/-- Reads the runs that are added or left out. -/
def readCombinations (key : String) (n : Node) : Checked (Option (List Assignments)) :=
  let what := s!"\"{key}\" in matrix"
  match n.items? with
  | some items => some <$> Checked.collect (items.map (readCombination what))
  | none => mismatch n what "a sequence of mappings"

/-- Reads a row. -/
def readRow (e : Entry) : Checked (Option MatrixRow) :=
  (Option.map fun values => ⟨e.key, values⟩) <$>
    readTexts s!"matrix row \"{e.key.value}\"" e.value

/-- Reads an entry. -/
def readPart (e : Entry) : Checked (Option Part) :=
  if [includeKey, excludeKey].contains e.key.value then
    Option.map Part.combinations <$> readCombinations e.key.value e.value
  else
    Option.map Part.row <$> readRow e

/-- The matrix that entries amount to. -/
def ofParts (parts : Keyed Part) (pos : Position) : Matrix where
  rows := parts.filterMap fun _ p => p.row?
  included := ((parts.find? includeKey).map Part.runs).getD []
  excluded := ((parts.find? excludeKey).map Part.runs).getD []
  pos

/-- Reads the entries of a matrix. -/
def readParts (n : Node) : Checked (Option (Keyed Part)) :=
  Section.within "\"matrix\" section" n fun s => some <$> s.collect readPart

/-- Reads a matrix. -/
def read (n : Node) : Checked (Option Matrix) :=
  Option.map (ofParts · n.pos) <$> readParts n

end Matrix

/-- Reads a strategy. -/
def Strategy.read (policy : Policy) (what : String) (n : Node) : Checked (Option Strategy) :=
  Section.within what n fun s => some <$> s.fill policy what do
    let matrix ← s.field "matrix" Matrix.read
    let failFast ← s.field "fail-fast" (readFlag "\"fail-fast\" in strategy")
    let maxParallel ← s.field "max-parallel" (readCount "\"max-parallel\" in strategy")
    return { matrix, failFast, maxParallel, pos := n.pos }

end WorkflowTree

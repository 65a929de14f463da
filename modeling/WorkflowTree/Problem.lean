import WorkflowTree.Position
import WorkflowTree.Yaml.Undecodable

/-!
# Problems

What can be wrong with a workflow file, where it is wrong, and what to do about it. A
list of problems is reported in the order of their places; problems at the same place
stay in the order in which they were found.
-/

namespace WorkflowTree

/-- What is wrong. -/
inductive Fault
  /-- A value has another shape than its field asks for. -/
  | shape (what expected found : String)
  /-- Two keys exclude each other. -/
  | exclusive (scope first second : String)
  /-- A required key is missing. -/
  | missing (scope field : String)
  /-- A key is repeated. -/
  | duplicate (scope key : String) (first : Position)
  /-- A key is not among the expected ones. -/
  | unexpected (scope key expected : String)
  /-- The text could not be decoded. -/
  | undecodable (cause : Yaml.Undecodable)
  deriving DecidableEq, Repr

namespace Fault

/-- The code of the kind of fault, which starts its message. -/
def code : Fault → String
  | shape .. => "GHWF-001"
  | exclusive .. => "GHWF-002"
  | missing .. => "GHWF-003"
  | duplicate .. => "GHWF-004"
  | unexpected .. => "GHWF-005"
  | undecodable .. => "GHWF-006"

/-- The fault in words, without its code. -/
def detail : Fault → String
  | shape what expected found => s!"{what} must be {expected}, but found {found}"
  | exclusive scope first second => s!"{first} and {second} cannot be used together in {scope}"
  | missing scope field => s!"\"{field}\" is required in {scope}"
  | duplicate scope key first =>
    s!"key \"{key}\" is duplicated in {scope}; first defined at {first.text}"
  | unexpected scope key expected =>
    s!"unexpected key \"{key}\" in {scope}; expected one of {expected}"
  | undecodable cause => s!"could not decode YAML: {cause.message}"

/-- The message for a reader of the file. -/
def message (f : Fault) : String := s!"{f.code}: {f.detail}"

/-- What to do about it. -/
def advice : Fault → String
  | shape .. => "Check the value against the workflow syntax reference"
  | exclusive .. => "Keep only one of the two forms"
  | missing .. => "Add the required key"
  | duplicate .. => "Remove or rename one of the entries"
  | unexpected .. => "Check the key for typos or wrong indentation"
  | undecodable .. => "Check YAML syntax: indentation and quoting"

end Fault

/-- A fault and the place where it shows. -/
structure Problem where
  fault : Fault
  pos : Position
  deriving DecidableEq, Repr

namespace Problem

/-- The place and the message of a problem. -/
def text (p : Problem) : String := s!"{p.pos.text}: {p.fault.message}"

/-- Sorts problems by place. Problems at one place keep their order. -/
def sort (ps : List Problem) : List Problem := ps.mergeSort fun p q => p.pos.le q.pos

/-- The texts of problems, one a line. -/
def report (ps : List Problem) : String := "\n".intercalate (ps.map text)

theorem sort_perm (ps : List Problem) : (sort ps).Perm ps := List.mergeSort_perm ..

@[simp] theorem mem_sort {p : Problem} {ps : List Problem} : p ∈ sort ps ↔ p ∈ ps :=
  (sort_perm ps).mem_iff

@[simp] theorem length_sort (ps : List Problem) : (sort ps).length = ps.length :=
  (sort_perm ps).length_eq

theorem sort_pairwise (ps : List Problem) :
    (sort ps).Pairwise fun p q => p.pos.le q.pos = true :=
  @List.pairwise_mergeSort _ (fun p q : Problem => p.pos.le q.pos)
    (fun _ _ _ => Position.le_trans) (fun p q => Position.le_total p.pos q.pos) ps

end Problem

end WorkflowTree

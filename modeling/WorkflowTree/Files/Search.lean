import WorkflowTree.Files.Selection
import WorkflowTree.Files.System

/-!
# The search for files

What the arguments of a check stand for in a system of files. A file stands for itself and a
directory for what is below it; any other argument is a pattern, which is expanded component
by component from the working directory or from the root of all files.
-/

namespace WorkflowTree.FileSystem

variable {m : Type → Type} [Monad m] (fs : FileSystem m)

/-- Everything below a directory, down to a depth. -/
def belowTo (child : Path → String → Path) : Nat → Path → m (List (Path × FileKind))
  | 0, _ => return []
  | depth + 1, dir => do
    let found ← (← fs.names dir).mapM fun name => do
      let p := child dir name
      match ← fs.kind? p with
      | none => return []
      | some .file => return [(p, .file)]
      | some .directory => return (p, .directory) :: (← belowTo child depth p)
    return found.flatten

/-- The files below a directory. Each is named by the path of the directory as it was written
and the names that lead to the file. -/
def filesBelow (dir : Path) : m (List Path) := do
  let found ← fs.belowTo Path.join fs.depth dir
  return found.filterMap fun (p, kind) => if kind = .file then some p else none

/-- The path of something in a directory that a pattern led to. The working directory goes
without saying. -/
def child (dir : Path) (name : String) : Path :=
  if dir.isCurrent then ⟨name⟩ else dir.join name

/-- A directory is there. -/
def hasDirectory (p : Path) : m Bool := return (← fs.kind? p) == some .directory

/-- The names that a component with wildcards may match: those in a directory and, if the
component starts with a dot, those of the directory itself and of the one above. -/
def candidates (c : PatternComponent) (dir : Path) : m (List Path) := do
  let inside := ((← fs.names dir).filter c.matchesName).map (child dir)
  let special := if c.startsWithDot then [".", ".."].filter c.matchesName else []
  return inside ++ special.map dir.join

/-- The paths that the components of a pattern lead to. -/
def expand : List PatternComponent → Path → m (List Path)
  | [], p => return [p]
  | .directories :: rest, p => do
    if !(← fs.hasDirectory p) then return []
    match rest with
    | [] =>
      let below ← fs.belowTo child fs.depth p
      return below.filterMap fun (q, kind) => if kind = .directory then some q else none
    | c :: rest =>
      let below ← fs.belowTo child fs.depth p
      let matching := below.filter fun (q, _) => q.name?.any c.matchesName
      return (← matching.mapM fun (q, _) => expand rest q).flatten
  | c :: rest, p => do
    match c.literal? with
    | some name =>
      let next := child p name
      let there ← if name = "." || name = ".." then fs.hasDirectory p
        else Option.isSome <$> fs.kind? next
      if there then expand rest next else return []
    | none =>
      if !(← fs.hasDirectory p) then return []
      return (← (← fs.candidates c p).mapM (expand rest)).flatten

/-- The files that a pattern selects. -/
def filesMatching (pattern : Pattern) : m (List Path) := do
  let found ← fs.expand pattern.components ⟨if pattern.fromRoot then "/" else "."⟩
  if pattern.directoriesOnly then return []
  found.filterM fun p => return (← fs.kind? p) == some .file

/-- What an argument stands for. -/
def target (argument : String) : m Target := do
  match ← fs.kind? ⟨argument⟩ with
  | some .file => return .file
  | some .directory => return .directory (← fs.filesBelow ⟨argument⟩)
  | none =>
    match Pattern.read argument with
    | .error flaw => return .pattern (.error flaw)
    | .ok pattern => return .pattern (.ok (← fs.filesMatching pattern))

/-- The files that arguments select together. -/
def select (arguments : List String) : m (Except SelectionFailure (List Path)) := do
  return Selection.select
    (← arguments.mapM fun argument => return (argument, ← fs.target argument))

end WorkflowTree.FileSystem

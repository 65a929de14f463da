import WorkflowTree.Files.System

/-!
# Trees of files

A system of files as a value: its files with their texts, and directories. A directory is there
if it is listed or if something stands below it. A place in the tree is the list of names that
leads to it, so two paths stand for one file exactly if they lead to one place.

* `FileTree.lookup_of_read` says that a path whose text can be read leads to a file with
  that text.
-/

namespace WorkflowTree

/-- A place in a tree: the names that lead to it from the top. -/
abbrev Place := List String

/-- A tree of files. -/
structure FileTree where
  files : List (Place × String)
  /-- Directories, also empty ones. -/
  directories : List Place
  deriving DecidableEq, Repr, Inhabited

namespace FileTree

/-- Something stands below a place. -/
def hasBelow (t : FileTree) (place : Place) : Bool :=
  (t.files.map Prod.fst ++ t.directories).any fun other =>
    place.isPrefixOf other && place.length < other.length

/-- What stands at a place. -/
def kindAt (t : FileTree) (place : Place) : Option FileKind :=
  if (t.files.lookup place).isSome then some .file
  else if place.isEmpty || t.directories.contains place || t.hasBelow place then some .directory
  else none

/-- The most bytes of a name. -/
def maxName : Nat := 255

/-- The most bytes of a path. -/
def maxPath : Nat := 4095

/-- One step from a directory, along a piece of a path. There is nothing above the top. -/
def step (t : FileTree) (place : Place) (piece : String) : Except ReadFailure Place :=
  match t.kindAt place with
  | none => .error .notFound
  | some .file => .error .notDirectory
  | some .directory =>
    if piece = "" || piece = "." then .ok place
    else if piece = ".." then
      if place.isEmpty then .error .notFound else .ok place.dropLast
    else if maxName < piece.utf8ByteSize then .error .nameTooLong
    else .ok (place ++ [piece])

/-- The place that a path leads to, where something may stand. Paths from the root of all
files lead out of the tree. -/
def placeOf (t : FileTree) (p : Path) : Except ReadFailure Place :=
  if maxPath < p.text.utf8ByteSize then .error .nameTooLong
  else if p.text = "" || p.components.head? = some .root then .error .notFound
  else p.pieces.foldlM t.step []

/-- What stands at a path. -/
def kind? (t : FileTree) (p : Path) : Option FileKind :=
  match t.placeOf p with
  | .error _ => none
  | .ok place => t.kindAt place

/-- The names in a directory, each once. -/
def names (t : FileTree) (p : Path) : List String :=
  match t.placeOf p with
  | .error _ => []
  | .ok place =>
    let below := (t.files.map Prod.fst ++ t.directories).filter place.isPrefixOf
    (below.filterMap fun other => other[place.length]?).eraseDups

/-- The text of a file. -/
def read (t : FileTree) (p : Path) : Except ReadFailure String := do
  let place ← t.placeOf p
  match t.files.lookup place with
  | some text => return text
  | none => throw (if t.kindAt place = some .directory then .isDirectory else .notFound)

/-- The length of the longest place of the tree. -/
def depth (t : FileTree) : Nat :=
  (t.files.map Prod.fst ++ t.directories).foldl (fun n place => max n place.length) 0

/-- The tree as a system of files, as seen from a directory that is called `here`. -/
def fileSystem (t : FileTree) (here : Path) : FileSystem Id where
  workingDirectory := here
  depth := t.depth
  kind? := t.kind?
  names := t.names
  read := t.read

/-- A path whose text can be read leads to a file with that text. -/
theorem lookup_of_read {t : FileTree} {p : Path} {text : String}
    (h : t.read p = .ok text) :
    ∃ place, t.placeOf p = .ok place ∧ t.files.lookup place = some text := by
  unfold read at h
  cases hp : t.placeOf p with
  | error e => simp [hp, bind, Except.bind] at h
  | ok place =>
    refine ⟨place, rfl, ?_⟩
    cases hl : t.files.lookup place with
    | none => simp [hp, hl, bind, Except.bind, throw, throwThe, MonadExceptOf.throw] at h
    | some s =>
      simp only [hp, hl, bind, Except.bind, pure, Except.pure, Except.ok.injEq] at h
      rw [h]

end FileTree

end WorkflowTree

import WorkflowTree.Files.Path

/-!
# File systems

What the program asks of the files around it. The questions are a record over a monad, so that
one and the same program runs on a disk and on a tree of files that is a value.
-/

namespace WorkflowTree

/-- What stands at a path. -/
inductive FileKind
  | file
  | directory
  deriving DecidableEq, Repr

/-- Why the text of a file cannot be read. -/
inductive ReadFailure
  | notFound
  | notDirectory
  | isDirectory
  | nameTooLong
  /-- Another reason that the system gives. -/
  | refused (reason : String)
  deriving DecidableEq, Repr

/-- The reason in the words of the system. -/
def ReadFailure.message : ReadFailure → String
  | notFound => "No such file or directory (os error 2)"
  | notDirectory => "Not a directory (os error 20)"
  | isDirectory => "Is a directory (os error 21)"
  | nameTooLong => "File name too long (os error 36)"
  | refused reason => reason

/-- A system of files, questioned in a monad. -/
structure FileSystem (m : Type → Type) where
  /-- The directory in which paths start, in full. -/
  workingDirectory : Path
  /-- No directory stands below more directories than this. -/
  depth : Nat
  /-- What stands at a path, if anything does. -/
  kind? : Path → m (Option FileKind)
  /-- The names in a directory. -/
  names : Path → m (List String)
  /-- The text of a file. -/
  read : Path → m (Except ReadFailure String)

end WorkflowTree

import WorkflowTree.Files.Tree

/-!
# Listings of files

A listing gives a tree of files as lines. A directory has the line `directory PATH`. A file has
the line `file COUNT PATH` and behind it, as they are, the lines of its text, of which there is
always one, since a text of no characters has one empty line.
-/

namespace WorkflowTree

/-- Why lines are no listing. -/
inductive ListingFlaw
  /-- A line should start a file or a directory. -/
  | badHeader (line : String)
  /-- The lines end within a file. -/
  | unfinished
  deriving DecidableEq, Repr

/-- The flaw in words. -/
def ListingFlaw.message : ListingFlaw → String
  | badHeader line => s!"not a file or a directory: '{line}'"
  | unfinished => "the listing ends within a file"

/-- How far a listing was read. -/
structure Listing where
  tree : FileTree
  /-- The place of the file that is being read, how many lines it still has, and those it had,
  the last one first. -/
  openFile? : Option (Place × Nat × List String)
  deriving Repr

namespace Listing

/-- The place of a path, in which empty pieces and dots do not count. -/
def placeOf (path : List Char) : Place :=
  ((path.splitOn '/').map String.ofList).filter fun piece => piece != "" && piece != "."

/-- Reads a line that starts a file or a directory. -/
def header (l : Listing) (line : String) : Except ListingFlaw Listing :=
  match line.toList.splitOn ' ' with
  | kind :: rest =>
    if kind = "directory".toList then
      let place := placeOf ([' '].intercalate rest)
      .ok { l with tree.directories := l.tree.directories ++ [place] }
    else match rest with
      | count :: path =>
        match (String.ofList count).toNat? with
        | some (n + 1) =>
          if kind = "file".toList then
            .ok { l with openFile? := some (placeOf ([' '].intercalate path), n + 1, []) }
          else .error (.badHeader line)
        | _ => .error (.badHeader line)
      | [] => .error (.badHeader line)
  | [] => .error (.badHeader line)

/-- Reads a line. -/
def step (l : Listing) (line : String) : Except ListingFlaw Listing :=
  match l.openFile? with
  | none => l.header line
  | some (place, n + 2, lines) => .ok { l with openFile? := some (place, n + 1, line :: lines) }
  | some (place, _, lines) =>
    let text := "\n".intercalate (line :: lines).reverse
    .ok { tree.files := l.tree.files ++ [(place, text)], tree.directories := l.tree.directories,
          openFile? := none }

end Listing

/-- The tree that a listing gives. -/
def FileTree.ofListing (lines : List String) : Except ListingFlaw FileTree := do
  let l ← lines.foldlM Listing.step ⟨⟨[], []⟩, none⟩
  if l.openFile?.isSome then throw .unfinished
  return l.tree

end WorkflowTree

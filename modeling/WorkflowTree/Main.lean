import WorkflowTree.CommandLine.Run
import WorkflowTree.Files.Listing

/-!
# The program

The program checks and dumps workflow files. It works on the files of a listing, which it reads
from standard input, and prints results to standard output and what is wrong to standard error.
It ends with 0 if all is well, with 1 if something is wrong with the files, and with 2 if it is
misused.
-/

namespace WorkflowTree.CommandLine

/-- All lines up to the end of a stream. -/
partial def readLines (stream : IO.FS.Stream) (before : List String) : IO (List String) := do
  let line ← stream.getLine
  if line.isEmpty then return before.reverse
  let ended := line.toList.getLast? == some '\n'
  readLines stream ((if ended then .ofList line.toList.dropLast else line) :: before)

/-- Prints a report and gives the exit code. -/
def printReport (r : Report) : IO UInt32 := do
  for line in r.lines do
    if line.isResult then IO.println line.text else IO.eprintln line.text
  return if r.succeeds then 0 else 1

/-- Prints why the program cannot run and gives the exit code. -/
def printMisuse (message : String) : IO UInt32 := do
  IO.eprintln s!"error: {message}"
  return 2

end WorkflowTree.CommandLine

open WorkflowTree CommandLine in
/-- Runs the program on the files that standard input lists. Standard input is read only if
there is something to do with them. -/
def main (words : List String) : IO UInt32 := do
  match Invocation.read words with
  | .error interruption =>
    match interruption.outcome with
    | .error f => printMisuse f.message
    | .ok report => printReport report
  | .ok invocation =>
    match FileTree.ofListing (← readLines (← IO.getStdin) []) with
    | .error f => printMisuse f.message
    | .ok tree => printReport (invocation.run (m := Id) (tree.fileSystem ⟨"."⟩))

import WorkflowTree.CommandLine.Report
import WorkflowTree.Files.Search
import WorkflowTree.Files.Tree

/-!
# Runs of the program

From the words of a command line to a report. The arguments are read first, then the policy,
and then the command does its work.
-/

namespace WorkflowTree.CommandLine

/-- The directory that is checked if a check has no arguments. -/
def usualDirectory : String := ".github/workflows"

/-- The files in which a policy is looked for if none is given, the first one first. -/
def policyFiles : List Path := [⟨".github/ghwf.yaml"⟩, ⟨".ghwf.yaml"⟩]

variable {m : Type → Type} [Monad m] (fs : FileSystem m)

/-- Reads the policy in a file. A failure names the file as it is shown. -/
def policyIn (file shown : Path) : m (Except Failure Policy) := do
  match ← fs.read file with
  | .error cause => return .error (.unreadableConfig shown cause)
  | .ok source =>
    match Policy.ofText source with
    | .error flaw => return .error (.badConfig shown flaw)
    | .ok policy => return .ok policy

/-- The policy in the first of the files that is there, or else the policy of defaults. -/
def discoverPolicy : List Path → m (Except Failure Policy)
  | [] => return .ok {}
  | file :: files => do
    if (← fs.kind? file) = some .file then policyIn fs file (fs.workingDirectory.join file.text)
    else discoverPolicy files

/-- The policy of an invocation. -/
def policyFor : Option String → m (Except Failure Policy)
  | some file => policyIn fs ⟨file⟩ ⟨file⟩
  | none => discoverPolicy fs policyFiles

/-- Checks files, up to one that cannot be read. -/
def verdicts (policy : Policy) : List Path → m (List Verdict × Option Failure)
  | [] => return ([], none)
  | file :: files => do
    match ← fs.read file with
    | .error cause => return ([], some (.unreadableWorkflow file cause))
    | .ok source =>
      let (vs, failure?) ← verdicts policy files
      return (.ofText policy file source :: vs, failure?)

/-- The arguments of a check, or the usual one if there are none. -/
def checkedArguments (arguments : List String) : List String :=
  if arguments.isEmpty then [usualDirectory] else arguments

/-- The files that a check with these arguments is about. -/
def filesToCheck (arguments : List String) : m (Except SelectionFailure (List Path)) :=
  fs.select (checkedArguments arguments)

/-- Checks the files that arguments select. -/
def check (policy : Policy) (arguments : List String) : m Report := do
  match ← filesToCheck fs arguments with
  | .error cause => return .failed (.selection cause) []
  | .ok [] => return .failed .noFiles []
  | .ok files =>
    match ← verdicts fs policy files with
    | (vs, none) => return .ofVerdicts vs
    | (vs, some failure) => return .failed failure (vs.flatMap Verdict.lines)

/-- Dumps the workflow in a file. -/
def dump (policy : Policy) (file : Path) (format : DumpFormat) : m Report := do
  match ← fs.read file with
  | .error cause => return .failed (.unreadableWorkflow file cause) []
  | .ok source => return .ofDump policy file format source

/-- Does what an invocation asks for. -/
def Invocation.run (i : Invocation) : m Report := do
  match ← policyFor fs i.config? with
  | .error failure => return .failed failure []
  | .ok policy =>
    match i.command with
    | .check arguments => check fs policy arguments
    | .dump file format => dump fs policy ⟨file⟩ format

/-- What becomes of a command line that is not read to its end. -/
def Interruption.outcome : Interruption → Except UsageFlaw Report
  | flaw f => .error f
  | help => .ok ⟨[.help], true⟩
  | version => .ok ⟨[.version], true⟩

/-- Runs the program on the words of a command line. -/
def run (words : List String) : m (Except UsageFlaw Report) := do
  match Invocation.read words with
  | .error interruption => return interruption.outcome
  | .ok invocation => return .ok (← invocation.run fs)

/-- Runs the program in a tree of files. -/
def runIn (t : FileTree) (here : Path) (words : List String) : Except UsageFlaw Report :=
  run (t.fileSystem here) words

end WorkflowTree.CommandLine

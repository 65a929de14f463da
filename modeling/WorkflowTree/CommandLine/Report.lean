import WorkflowTree.CommandLine.Arguments
import WorkflowTree.CommandLine.Failure
import WorkflowTree.Dump.Yaml
import WorkflowTree.Reading.Workflow

/-!
# Reports

What a command prints, as a list of lines that know what they say. A check gives a verdict on
each file; its report has the lines of all verdicts, in the order of the files, and a summary.

* `Report.ofVerdicts_succeeds_iff` says that a check succeeds exactly if all files are accepted.
-/

namespace WorkflowTree.CommandLine

/-- Something that is printed. -/
inductive Line
  /-- A file is accepted. -/
  | accepted (file : Path)
  /-- A problem of a file. -/
  | problem (file : Path) (p : Problem)
  /-- What to do about the problem above. -/
  | advice (fault : Fault)
  /-- All files are accepted. -/
  | allAccepted (files : Nat)
  /-- Some files are rejected, which have so many problems together. -/
  | someRejected (problems rejected files : Nat)
  /-- A workflow. -/
  | dumped (format : DumpFormat) (w : Workflow)
  | version
  | help
  /-- The command ends before its work is done. -/
  | failed (f : Failure)
  deriving DecidableEq

namespace Line

/-- How the program is used. -/
def usage : String := "\n".intercalate [
  "Position-tracking parser for GitHub Actions workflow files",
  "",
  "Usage: ghwf [OPTIONS] check [PATHS]...",
  "       ghwf [OPTIONS] dump [--format json|yaml] FILE",
  "",
  "Options:",
  "  -v, --verbose          Enable debug logging",
  "  -c, --config <CONFIG>  Parser config file (default: .github/ghwf.yaml or .ghwf.yaml)",
  "  -h, --help             Print help",
  "  -V, --version          Print version"]

/-- The text of a line. That of a dumped workflow has many lines. -/
def text : Line → String
  | accepted file => s!"✓ {file.text}"
  | problem file p => s!"{file.text}:{p.text}"
  | advice fault => s!"  Fix: {fault.advice}"
  | allAccepted files => s!"✓ {files} workflow(s) valid"
  | someRejected problems rejected files =>
    s!"✗ {problems} error(s) in {rejected} of {files} workflow(s)"
  | dumped .json w => w.toValue.json
  | dumped .yaml w => w.toValue.yaml
  | version => "ghwf 0.1.0"
  | help => usage
  | failed f => s!"Error: {f.message}"

/-- The line tells of a result and not of something that is wrong. -/
def isResult : Line → Bool
  | accepted _ | allAccepted _ | dumped .. | version | help => true
  | problem .. | advice _ | someRejected .. | failed _ => false

end Line

/-- The lines about the problems of a file. -/
def problemLines (file : Path) (problems : List Problem) : List Line :=
  problems.flatMap fun p => [.problem file p, .advice p.fault]

/-- What the check of one file came to. -/
structure Verdict where
  file : Path
  result : Except (List Problem) Workflow

namespace Verdict

/-- Checks the text of a file. -/
def ofText (policy : Policy) (file : Path) (source : String) : Verdict :=
  ⟨file, Workflow.parseText policy source⟩

/-- The file is rejected. -/
def rejects (v : Verdict) : Bool :=
  match v.result with
  | .ok _ => false
  | .error _ => true

/-- The problems of the file. -/
def problems (v : Verdict) : List Problem :=
  match v.result with
  | .ok _ => []
  | .error problems => problems

/-- What is printed about the file. -/
def lines (v : Verdict) : List Line :=
  match v.result with
  | .ok _ => [.accepted v.file]
  | .error problems => problemLines v.file problems

end Verdict

/-- What a command prints, and whether it succeeds. -/
structure Report where
  lines : List Line
  succeeds : Bool
  deriving DecidableEq

namespace Report

/-- The report of a command that ends before its work is done, after what was printed before. -/
def failed (f : Failure) (before : List Line) : Report := ⟨before ++ [.failed f], false⟩

/-- No file is rejected. -/
def allAccept (vs : List Verdict) : Bool := vs.all fun v => !v.rejects

/-- The last line of a report on files. -/
def summary (vs : List Verdict) : Line :=
  if allAccept vs then .allAccepted vs.length
  else .someRejected (vs.flatMap Verdict.problems).length (vs.countP Verdict.rejects) vs.length

/-- The report on files. -/
def ofVerdicts (vs : List Verdict) : Report :=
  ⟨vs.flatMap Verdict.lines ++ [summary vs], allAccept vs⟩

/-- The report on the dump of a text. -/
def ofDump (policy : Policy) (file : Path) (format : DumpFormat) (source : String) : Report :=
  match Workflow.parseText policy source with
  | .ok w => ⟨[.dumped format w], true⟩
  | .error problems => ⟨problemLines file problems, false⟩

theorem ofVerdicts_succeeds_iff {vs : List Verdict} :
    (ofVerdicts vs).succeeds = true ↔ ∀ v ∈ vs, v.rejects = false := by
  simp [ofVerdicts, allAccept]

/-- The lines for standard output. -/
def results (r : Report) : List Line := r.lines.filter Line.isResult

/-- The lines for standard error. -/
def complaints (r : Report) : List Line := r.lines.filter fun l => !l.isResult

end Report

end WorkflowTree.CommandLine

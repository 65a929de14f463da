import WorkflowTree.Reading.Settings
import WorkflowTree.Workflow.Container

/-!
# Reading containers

A container may be written as its image alone.
-/

namespace WorkflowTree

/-- Reads the account of a registry. -/
def Credentials.read (policy : Policy) (what : String) (n : Node) :
    Checked (Option Credentials) :=
  Section.within what n fun s => do
    let (username, password) ← s.fill policy what do
      let username ← s.field "username" (readText "\"username\" in credentials")
      let password ← s.field "password" (readText "\"password\" in credentials")
      return (username, password)
    let username ← s.require username "username" what n.pos
    let password ← s.require password "password" what n.pos
    return do
      let username ← username
      let password ← password
      some { username, password, pos := n.pos }

/-- Reads the keys of a container: the required one, and the container that the others make of
it. -/
def Container.readFields (policy : Policy) (what : String) (s : Section) (pos : Position) :
    Form (Option Text × (Text → Container)) := do
  let of (key : String) := s!"\"{key}\" in {what}"
  let image ← s.field "image" (readText (of "image"))
  let credentials ← s.field "credentials" (Credentials.read policy (of "credentials"))
  let env ← s.field "env" (readEnv (of "env"))
  let ports ← s.field "ports" (readTexts (of "ports"))
  let volumes ← s.field "volumes" (readTexts (of "volumes"))
  let options ← s.field "options" (readText (of "options"))
  return (image, fun image => {
    image, credentials, env := env.getD .empty, ports := ports.getD [],
    volumes := volumes.getD [], options, pos })

/-- Reads a container. -/
def Container.read (policy : Policy) (what : String) (n : Node) : Checked (Option Container) :=
  match n.leaf? with
  | some image => pure (some { image, pos := n.pos })
  | none => Section.within what n fun s => do
    let (image, complete) ← s.fill policy what (readFields policy what s n.pos)
    let image ← s.require image "image" what n.pos
    return image.map complete

/-- Reads the containers beside a job. -/
def readServices (policy : Policy) (what : String) (n : Node) :
    Checked (Option (Keyed Service)) :=
  Section.within what n fun s => some <$> s.collect fun e =>
    (Option.map fun container => ⟨e.key, container⟩) <$>
      Container.read policy s!"service \"{e.key.value}\"" e.value

end WorkflowTree

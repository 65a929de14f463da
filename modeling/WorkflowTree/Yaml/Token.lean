import WorkflowTree.Yaml.Flaw

/-!
# Tokens

The words of YAML: indicators, scalars, properties of nodes, and the starts and ends of
block collections, which are not written but follow from indentation.
-/

namespace WorkflowTree.Yaml

/-- A tag as it is written. -/
structure Tag where
  /-- The part that stands for the start of the tag's full name. -/
  handle : String
  suffix : String
  deriving DecidableEq, Repr

namespace Tag

/-- What the handles stand for that need no directive. The empty one is that of a tag
written in full. -/
def handles : List (String × String) := [("", ""), ("!", "!"), ("!!", "tag:yaml.org,2002:")]

/-- The tag with a handle that no directive has to declare: one without a suffix is written
in full. -/
def ofSuffix (suffix : String) : Tag := if suffix.isEmpty then ⟨"", "!"⟩ else ⟨"!", suffix⟩

end Tag

/-- A directive. -/
inductive Directive
  /-- The version of YAML. -/
  | version (major minor : Nat)
  /-- The declaration of a tag handle: what it stands for. -/
  | handle (name target : String)
  /-- Any other directive. -/
  | unknown
  deriving DecidableEq, Repr

/-- How a scalar is written. -/
inductive ScalarStyle
  | plain
  /-- The lines of a block are taken as they are. -/
  | literal
  /-- The lines of a block are folded. -/
  | folded
  | quoted
  deriving DecidableEq, Repr

/-- A word of YAML. -/
inductive Word
  | streamEnd
  | documentStart
  | documentEnd
  | directive (d : Directive)
  | blockSequenceStart
  | blockMappingStart
  | blockEnd
  | flowSequenceStart
  | flowSequenceEnd
  | flowMappingStart
  | flowMappingEnd
  | blockEntry
  | flowEntry
  | key
  | value
  | alias (name : String)
  | anchor (name : String)
  | tag (t : Tag)
  | scalar (text : String) (style : ScalarStyle)
  deriving DecidableEq, Repr

/-- The word shows that a document with a marker has no content. -/
def Word.isDocumentEdge : Word → Bool
  | directive _ | documentStart | documentEnd | streamEnd => true
  | _ => false

/-- A word and the place where it was written. -/
abbrev Token := Located Word

/-- The tokens of a text up to its end or its first flaw. -/
structure TokenStream where
  tokens : List Token
  /-- The flaw behind the last token. Nothing follows the end of a text, so that it is a
  flaw to ask for more. -/
  stop : Located Flaw

end WorkflowTree.Yaml

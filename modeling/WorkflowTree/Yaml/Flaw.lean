import WorkflowTree.Position

/-!
# Flaws

The reasons for which a text is not YAML. Reading a text either succeeds or ends at its
first flaw, which stands at a place of the text.
-/

namespace WorkflowTree.Yaml

/-- Why a text is not YAML. -/
inductive Flaw
  /-- A tab stands where indentation is counted. -/
  | tabInIndentation
  /-- A tab follows an indicator that a space has to follow. -/
  | tabAfterIndicator
  /-- A comment follows a token without a blank between them. -/
  | commentWithoutBlank
  /-- A line is indented less than the collection it belongs to. -/
  | lessIndented
  /-- A key of a block mapping has no colon on its line. -/
  | keyWithoutColon
  /-- An explicit key, a value or a sequence entry may not stand here. -/
  | misplacedIndicator
  /-- No token starts with this character. -/
  | reservedCharacter
  /-- Flow collections are nested too deeply. -/
  | tooDeep
  /-- Text follows the marker of a document's end, or a quoted scalar. -/
  | trailingText
  /-- A quoted scalar is not closed. -/
  | unclosedQuote
  /-- A backslash escape of a quoted scalar is not one of YAML. -/
  | badEscape
  /-- A plain scalar of a flow collection starts with a dash and an indicator. -/
  | badPlain
  /-- The header of a block scalar is not one of YAML. -/
  | badBlockHeader
  /-- An anchor or an alias has no name. -/
  | namelessAnchor
  /-- A tag is not written as YAML asks for. -/
  | badTag
  /-- A tag uses a handle that no directive declares. -/
  | undeclaredHandle
  /-- A directive is not written as YAML asks for. -/
  | badDirective
  /-- The version is declared twice. -/
  | repeatedVersion
  /-- Directives stand without the marker of a document's start. -/
  | strayDirective
  /-- An alias names an anchor that was not set. -/
  | unsetAnchor
  /-- A node was expected. -/
  | expectedNode
  /-- A key of a block mapping was expected. -/
  | expectedKey
  /-- The dash of a block sequence was expected. -/
  | expectedEntry
  /-- A comma or the end of a flow collection was expected. -/
  | expectedSeparator
  /-- A character of the text may not be written. -/
  | forbiddenCharacter
  /-- Something other than a name is attached to an anchor or an alias. -/
  | badAnchor
  /-- A colon of a flow collection is followed by an indicator. -/
  | attachedColon
  /-- The version that is declared is not supported. -/
  | unsupportedVersion
  /-- A tag handle is declared twice. -/
  | repeatedHandle
  /-- No directive has this name. -/
  | unknownDirective
  /-- Something follows the only document that a text may have. -/
  | anotherDocument
  /-- Reading did not come to an end within the bound set for it. -/
  | unfinished
  deriving DecidableEq, Repr

namespace Flaw

/-- The flaw in words. -/
def message : Flaw → String
  | tabInIndentation => "tabs may not be used as indentation"
  | tabAfterIndicator => "a space is needed after an indicator, but a tab was found"
  | commentWithoutBlank => "comments must be separated from other tokens by whitespace"
  | lessIndented => "the line is not indented enough"
  | keyWithoutColon => "a simple key needs a ':' on its line"
  | misplacedIndicator => "a mapping or sequence indicator is not allowed here"
  | reservedCharacter => "no token can start with this character"
  | tooDeep => "flow collections are nested too deeply"
  | trailingText => "unexpected text at the end of the line"
  | unclosedQuote => "a quoted scalar is not closed"
  | badEscape => "unknown escape in a double quoted scalar"
  | badPlain => "a plain scalar may not start with '-' before a flow indicator"
  | badBlockHeader => "the header of a block scalar is malformed"
  | namelessAnchor => "an anchor or an alias needs a name"
  | badTag => "a tag is malformed"
  | undeclaredHandle => "the handle of a tag was not declared"
  | badDirective => "a directive is malformed"
  | repeatedVersion => "the YAML version is declared twice"
  | strayDirective => "a directive needs the start of a document"
  | unsetAnchor => "an alias refers to an anchor that was not set"
  | expectedNode => "a node was expected"
  | expectedKey => "a mapping key was expected"
  | expectedEntry => "a '-' was expected"
  | expectedSeparator => "a ',' or the end of the flow collection was expected"
  | forbiddenCharacter => "control characters are not allowed"
  | badAnchor => "the name of an anchor or an alias may have letters, digits, '-' and '_' only"
  | attachedColon => "a ':' in a flow collection may not be followed by an indicator"
  | unsupportedVersion => "this version of YAML is not supported"
  | repeatedHandle => "the handle of a tag is declared twice"
  | unknownDirective => "unknown directive"
  | anotherDocument => "more than one document"
  | unfinished => "the text could not be read to its end"

end Flaw

/-- The result of reading a part of a text: a value, or the first flaw met. -/
abbrev Outcome := Except (Located Flaw)

/-- Repeats a step until it is done, at most as often as the bound says. Steps that
consume a character each time are done within the number of characters that are left. -/
def repeatUpTo {σ α : Type} (step : σ → Outcome (σ ⊕ α)) (stuck : σ → Located Flaw) :
    Nat → σ → Outcome α
  | 0, s => .error (stuck s)
  | n + 1, s =>
    match step s with
    | .error e => .error e
    | .ok (.inl next) => repeatUpTo step stuck n next
    | .ok (.inr done) => .ok done

end WorkflowTree.Yaml

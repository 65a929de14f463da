import WorkflowTree.Dump.Json
import WorkflowTree.Number.Decimal

/-!
# Values as YAML

Lists and records are written in block style; the items of a list stand at the column of the
record that holds the list. A text is written plainly where nothing else can be read from it,
and otherwise in quotes.
-/

namespace WorkflowTree.Value

/-- The characters a plain text may consist of, except for its first one. -/
def isPlainChar (c : Char) : Bool :=
  c.isAlphanum || c.toNat > 0xA0 && c.toNat != 0xFEFF ||
    " !$%&()*+,-./;<=>?@[]^_|~".toList.contains c

/-- The characters a plain text may start with. -/
def isPlainStart (c : Char) : Bool :=
  c.isAlphanum || c.toNat > 0xA0 && c.toNat != 0xFEFF || "$()+./;<^_".toList.contains c

/-- Words that may be read as a truth value or as nothing. -/
def specialWords : List String := ["y", "n", "yes", "no", "true", "false", "on", "off", "null"]

/-- Only a text can be read from this text where it is written plainly. -/
def isPlain (s : String) : Bool :=
  match s.toList with
  | [] => false
  | c :: cs =>
    isPlainStart c && cs.all isPlainChar && cs.getLast? != some ' ' &&
      !specialWords.contains s.toLower && (Decimal.read? s).isNone &&
      !(c.isDigit || (c == '.' || c == '+') && cs.all fun d => d.isAlphanum || d == '.')

/-- A text, plain or in quotes. -/
def textYaml (s : String) : String :=
  if isPlain s then s
  else if s.toList.all fun c => 0x20 ≤ c.toNat && c.toNat < 0x7F || c.toNat > 0xA0 then
    "'" ++ s.replace "'" "''" ++ "'"
  else quoted s

/-- A value on the line of its key or dash. -/
def scalarYaml : Value → String
  | text s => textYaml s
  | list _ => "[]"
  | record _ => "\x7b\x7d"
  | v => scalarJson v

/-- Puts lines behind a dash. -/
def behindDash : List String → List String
  | [] => []
  | line :: lines => ("- " ++ line) :: lines.map ("  " ++ ·)

mutual

/-- The lines of a value. -/
def yamlLines : Value → List String
  | list (v :: vs) => itemsYaml (v :: vs)
  | record (f :: fs) => fieldsYaml (f :: fs)
  | v => [scalarYaml v]

/-- The lines of the items of a list. -/
def itemsYaml : List Value → List String
  | [] => []
  | v :: vs => behindDash v.yamlLines ++ itemsYaml vs

/-- The lines of the fields of a record. -/
def fieldsYaml : List (String × Value) → List String
  | [] => []
  | (name, v) :: fs =>
    let key := textYaml name ++ ":"
    let lines := v.yamlLines
    (match v with
      | list (_ :: _) => key :: lines
      | record (_ :: _) => key :: lines.map ("  " ++ ·)
      | _ => [key ++ " " ++ scalarYaml v]) ++ fieldsYaml fs

end

/-- The text of a value in YAML. -/
def yaml (v : Value) : String := String.join (v.yamlLines.map (· ++ "\n"))

end WorkflowTree.Value

import WorkflowTree.Dump.Value
import WorkflowTree.Number.Shortest

/-!
# Values as JSON

Each item of a list and each field of a record stands on its own line, two blanks further in
than the brackets around it. Numbers are written with the fewest digits that read back.
-/

namespace WorkflowTree

namespace Value

/-- A number in hexadecimal digits, at least four of them. -/
def hexUnit (n : Nat) : String :=
  let digits := Nat.toDigits 16 n
  "".pushn '0' (4 - digits.length) ++ .ofList digits

/-- A character in a quoted text. -/
def escape (c : Char) : String :=
  match c with
  | '"' => "\\\""
  | '\\' => "\\\\"
  | '\n' => "\\n"
  | '\r' => "\\r"
  | '\t' => "\\t"
  | '\x08' => "\\b"
  | '\x0c' => "\\f"
  | c => if c.toNat < 0x20 then "\\u" ++ hexUnit c.toNat else c.toString

/-- A text in quotes. -/
def quoted (s : String) : String := "\"" ++ String.join (s.toList.map escape) ++ "\""

/-- The start of a line that stands `depth` levels in. -/
def newLine (depth : Nat) : String := "\n" ++ "".pushn ' ' (2 * depth)

/-- Parts in brackets, each on a line of its own. -/
def bracketed (opening closing : String) (depth : Nat) (parts : List String) : String :=
  if parts.isEmpty then opening ++ closing
  else opening ++ newLine (depth + 1) ++ (("," ++ newLine (depth + 1)).intercalate parts)
    ++ newLine depth ++ closing

/-- A value that has no parts. -/
def scalarJson : Value → String
  | flag b => if b then "true" else "false"
  | integer i => toString i
  | number x => x.text
  | text s => quoted s
  | _ => "null"

mutual

/-- A value that stands `depth` levels in. -/
def toJson (depth : Nat) : Value → String
  | list items => bracketed "[" "]" depth (itemsJson depth items)
  | record fields => bracketed "\x7b" "\x7d" depth (fieldsJson depth fields)
  | v => scalarJson v

/-- The items of a list. -/
def itemsJson (depth : Nat) : List Value → List String
  | [] => []
  | v :: vs => v.toJson (depth + 1) :: itemsJson depth vs

/-- The fields of a record. -/
def fieldsJson (depth : Nat) : List (String × Value) → List String
  | [] => []
  | (name, v) :: fs => (quoted name ++ ": " ++ v.toJson (depth + 1)) :: fieldsJson depth fs

end

/-- The text of a value in JSON. -/
def json (v : Value) : String := v.toJson 0

end Value

end WorkflowTree

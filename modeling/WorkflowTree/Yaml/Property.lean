import WorkflowTree.Number.Integer
import WorkflowTree.Yaml.Cursor
import WorkflowTree.Yaml.Token

/-!
# Anchors, tags and directives

The properties of nodes and the directives of documents are written with runs of name
and URI characters. A percent sign starts an escape, which writes the bytes of a character
in hexadecimal digits.
-/

namespace WorkflowTree.Yaml

open Character

/-! ### Anchors -/

/-- Reads the name of an anchor or an alias behind its indicator. -/
def readAnchor (c : Cursor) : Outcome (String × Cursor) :=
  let name := (c.skip 1).run isAnchor
  if name.isEmpty then c.flawed .namelessAnchor
  else .ok (String.ofList name, c.skip (1 + name.length))

namespace Tag

/-! ### Escapes -/

/-- The number of bytes that a first byte announces. -/
def width? (byte : Nat) : Option Nat :=
  if byte < 0x80 then some 1
  else if 0xC0 ≤ byte && byte < 0xE0 then some 2
  else if 0xE0 ≤ byte && byte < 0xF0 then some 3
  else if 0xF0 ≤ byte && byte < 0xF8 then some 4
  else none

/-- The byte that a percent sign and two hexadecimal digits write. -/
def byte? (cs : List Char) : Option Nat :=
  match cs with
  | '%' :: a :: b :: _ => if isHex a && isHex b then some (16 * hexValue a + hexValue b) else none
  | _ => none

/-- So many escaped bytes that continue a character, first of all those at the front. -/
def following? : Nat → List Char → Option (List Nat)
  | 0, _ => some []
  | n + 1, cs =>
    match byte? cs with
    | some b =>
      if 0x80 ≤ b && b < 0xC0 then (following? n (cs.drop 3)).map (b :: ·) else none
    | none => none

/-- The bytes of the escaped character at the front. -/
def bytes? (cs : List Char) : Option (List Nat) := do
  let first ← byte? cs
  let width ← width? first
  return first :: (← following? (width - 1) (cs.drop 3))

/-- The character that the escape at the front stands for, and the number of characters that
write it. Its bytes, put side by side, have to be the number of a character. -/
def escape? (cs : List Char) : Option (Char × Nat) := do
  let bytes ← bytes? cs
  return (← charOfCode? (bytes.foldl (fun n b => 256 * n + b) 0), 3 * bytes.length)

/-- Reads the characters of a class, in which percent signs are escapes. -/
def readEscaped (p : Char → Bool) (start c : Cursor) : Outcome (String × Cursor) :=
  Cursor.loop Prod.snd
    (fun (text, c) =>
      if !p c.peek then .ok (.inr (text, c))
      else if c.peek == '%' then
        match escape? c.rest with
        | some (x, n) => .ok (.inl (text.push x, c.skip n))
        | none => start.flawed .badTag
      else .ok (.inl (text.push c.peek, c.skip 1)))
    ("", c)

/-! ### Tags -/

/-- The handle at the cursor: an exclamation mark, a name, and maybe a second mark. -/
def handleAt (c : Cursor) : List Char :=
  let name := (c.skip 1).run isName
  let last := if c.ahead (1 + name.length) == '!' then ['!'] else []
  '!' :: name ++ last

/-- Two exclamation marks enclose the handle, so a directive may give it a meaning. -/
def isEnclosed (handle : List Char) : Bool :=
  2 ≤ handle.length && handle.getLast? == some '!'

/-- Reads the tag at the cursor. -/
def read (inFlow : Bool) (start : Cursor) : Outcome (Tag × Cursor) := do
  let (tag, c) ←
    if start.ahead 1 == '<' then do
      let (name, c) ← readEscaped isUri start (start.skip 2)
      if c.peek != '>' then start.flawed .badTag
      pure (⟨"", name⟩, c.skip 1)
    else do
      let h := handleAt start
      let (suffix, c) ← readEscaped isTag start (start.skip h.length)
      if isEnclosed h && suffix.isEmpty then start.flawed .badTag
      pure (if isEnclosed h then ⟨String.ofList h, suffix⟩
        else ofSuffix (String.ofList (h.drop 1) ++ suffix), c)
  if endsWord c.peek || (inFlow && isFlow c.peek) then return (tag, c)
  start.flawed .badTag

end Tag

namespace Directive

/-! ### Directives -/

/-- Reads a number of a version, which has one to nine digits. -/
def readNumber (start c : Cursor) : Outcome (Nat × Cursor) :=
  let digits := c.run Char.isDigit
  if digits.isEmpty || 9 < digits.length then start.flawed .badDirective
  else .ok (appendDigits 0 digits, c.skip digits.length)

/-- Reads the two numbers of a version. -/
def readVersion (start c : Cursor) : Outcome (Directive × Cursor) := do
  let (major, c) ← readNumber start (c.skipBlanks isBlank)
  if c.peek != '.' then start.flawed .badDirective
  let (minor, c) ← readNumber start (c.skip 1)
  return (.version major minor, c)

/-- Reads the handle and the URI of a tag declaration. -/
def readHandle (start c : Cursor) : Outcome (Directive × Cursor) := do
  let c := c.skipBlanks isBlank
  if c.peek != '!' then start.flawed .badDirective
  let h := Tag.handleAt c
  if h != ['!'] && !Tag.isEnclosed h then start.flawed .badDirective
  let c := (c.skip h.length).skipBlanks isBlank
  let first := if c.peek == '!' then "!" else ""
  if first.isEmpty && !isTag c.peek then start.flawed .badDirective
  let (target, c) ← Tag.readEscaped isUri start (c.skip first.length)
  if !endsWord c.peek then start.flawed .badDirective
  return (.handle (String.ofList h) (first ++ target), c)

/-- Reads the directive at the cursor and the end of its line. -/
def read (start : Cursor) : Outcome (Directive × Cursor) := do
  let name := (start.skip 1).run isName
  let c := start.skip (1 + name.length)
  if name.isEmpty || !endsWord c.peek then start.flawed .badDirective
  let (d, c) ← match String.ofList name with
    | "YAML" => readVersion start c
    | "TAG" => readHandle start c
    | _ => pure (.unknown, c.skipLine)
  let (_, c) ← c.skipToLineEnd
  if !endsLine c.peek then start.flawed .badDirective
  return (d, if isBreak c.peek then c.skipBreak else c)

end Directive

end WorkflowTree.Yaml

import WorkflowTree.Yaml.Property
import WorkflowTree.Yaml11.Character

/-!
# Anchors, tags and directives of YAML 1.1

The names of anchors have letters and digits of ASCII only. Tags do not end at a bracket that
is attached to them, and their escapes may write any bytes in the form of a character. All
directives have to be known.
-/

namespace WorkflowTree.Yaml11

open Yaml
open Yaml.Character (isBlank isName isFlow)
open Yaml11.Character

/-- Passes blanks and a comment, which needs no blank before it. -/
def skipComment (c : Cursor) : Cursor :=
  let c := c.skipBlanks isBlank
  if c.peek == '#' then c.skipLine else c

/-! ### Anchors -/

/-- Reads the name of an anchor or an alias behind its indicator. -/
def readAnchor (start : Cursor) : Outcome (String × Cursor) :=
  let name := (start.skip 1).run isName
  let c := start.skip (1 + name.length)
  if name.isEmpty then start.flawed .namelessAnchor
  else if c.endsWord c.peek || mayFollowName c.peek then .ok (String.ofList name, c)
  else start.flawed .badAnchor

namespace Tag

/-! ### Tags -/

/-- The text that bytes write. Bytes that write none are shown as a replacement character. -/
def ofBytes (bytes : List Nat) : String :=
  (String.fromUTF8? ⟨(bytes.map UInt8.ofNat).toArray⟩).getD "\uFFFD"

/-- Reads at least so many characters of a class, in which percent signs are escapes. An escaped
NUL ends the text that they write. -/
def readEscaped (p : Char → Bool) (least : Nat) (start c : Cursor) :
    Outcome (String × Cursor) := do
  let (text, next) ← Cursor.loop Prod.snd
    (fun (text, c) =>
      if !p c.peek then .ok (.inr (text, c))
      else if c.peek == '%' then
        match Yaml.Tag.bytes? c.rest with
        | some bytes => .ok (.inl (text ++ ofBytes bytes, c.skip (3 * bytes.length)))
        | none => start.flawed .badTag
      else .ok (.inl (text.push c.peek, c.skip 1)))
    ("", c)
  if next.index < c.index + least then start.flawed .badTag
  return (String.ofList (text.toList.takeWhile (· != endMark)), next)

/-- Reads the tag at the cursor. -/
def read (inFlow : Bool) (start : Cursor) : Outcome (Tag × Cursor) := do
  let (tag, c) ←
    if start.ahead 1 == '<' then do
      let (name, c) ← readEscaped isUri 1 start (start.skip 2)
      if c.peek != '>' then start.flawed .badTag
      pure (⟨"", name⟩, c.skip 1)
    else do
      let h := Yaml.Tag.handleAt start
      let enclosed := Yaml.Tag.isEnclosed h
      let (suffix, c) ←
        readEscaped isTag (if enclosed then 1 else 0) start (start.skip h.length)
      pure (if enclosed then ⟨String.ofList h, suffix⟩
        else Yaml.Tag.ofSuffix (String.ofList (h.drop 1) ++ suffix), c)
  if c.endsWord c.peek || (inFlow && c.peek == ',') then return (tag, c)
  start.flawed .badTag

end Tag

namespace Directive

/-! ### Directives -/

/-- Reads the handle and the URI of a tag declaration. -/
def readHandle (start c : Cursor) : Outcome (Directive × Cursor) := do
  let c := c.skipBlanks isBlank
  if c.peek != '!' then start.flawed .badDirective
  let h := Yaml.Tag.handleAt c
  if h != ['!'] && !Yaml.Tag.isEnclosed h then start.flawed .badDirective
  let c := c.skip h.length
  if !isBlank c.peek then start.flawed .badDirective
  let (target, c) ← Tag.readEscaped isUri 1 start (c.skipBlanks isBlank)
  if !c.endsWord c.peek then start.flawed .badDirective
  return (.handle (String.ofList h) target, c)

/-- Reads the directive at the cursor and the end of its line. -/
def read (start : Cursor) : Outcome (Directive × Cursor) := do
  let name := (start.skip 1).run isName
  let c := start.skip (1 + name.length)
  if name.isEmpty || !c.endsWord c.peek then start.flawed .badDirective
  let (d, c) ← match String.ofList name with
    | "YAML" => Yaml.Directive.readVersion start c
    | "TAG" => readHandle start c
    | _ => start.flawed .unknownDirective
  let c := skipComment c
  if !c.endsLine c.peek then start.flawed .badDirective
  return (d, if c.isBreak c.peek then c.skipBreak else c)

end Directive

end WorkflowTree.Yaml11

/-!
# Character classes

The classes of characters that the lexical rules of YAML name. A NUL character ends a
text wherever it stands, so it also stands for "no more characters".
-/

namespace WorkflowTree.Yaml

/-- The character that stands for the end of a text. -/
def endMark : Char := '\x00'

namespace Character

/-- No character follows. -/
def isEnd (c : Char) : Bool := c == endMark

/-- A line feed or a carriage return. -/
def isBreak (c : Char) : Bool := c == '\n' || c == '\r'

/-- A break that is not of ASCII: the next line, or a separator of lines or paragraphs. -/
def isUnicodeBreak (c : Char) : Bool := c ∈ ['\u0085', '\u2028', '\u2029']

/-- A space or a tab. -/
def isBlank (c : Char) : Bool := c == ' ' || c == '\t'

/-- A line ends here, either by a break or with the text. -/
def endsLine (c : Char) : Bool := isBreak c || isEnd c

/-- A word ends here. -/
def endsWord (c : Char) : Bool := isBlank c || endsLine c

/-- An indicator of a flow collection. -/
def isFlow (c : Char) : Bool := c ∈ [',', '[', ']', '\x7b', '\x7d']

/-- A letter, a digit, a dash or an underscore of ASCII. -/
def isName (c : Char) : Bool := c.isAlphanum || c == '-' || c == '_'

/-- A hexadecimal digit. -/
def isHex (c : Char) : Bool :=
  c.isDigit || ('a' ≤ c && c ≤ 'f') || ('A' ≤ c && c ≤ 'F')

/-- The value of a hexadecimal digit; other characters count as zero. -/
def hexValue (c : Char) : Nat :=
  if c.isDigit then c.toNat - '0'.toNat
  else if 'a' ≤ c && c ≤ 'f' then c.toNat - 'a'.toNat + 10
  else if 'A' ≤ c && c ≤ 'F' then c.toNat - 'A'.toNat + 10
  else 0

/-- A character of an anchor's name: anything but a blank, a break, a flow indicator,
the end, or a byte order mark. -/
def isAnchor (c : Char) : Bool := !(endsWord c || isFlow c || c == '\uFEFF')

/-- A character that may stand in a URI, the percent sign of an escape included. -/
def isUri (c : Char) : Bool :=
  (isName c && c != '_') || "#;/?:@&=+$,_.!~*'()[]%".toList.contains c

/-- A character that may stand in the suffix of a tag. -/
def isTag (c : Char) : Bool := isUri c && !isFlow c && c != '!'

end Character

/-- The character that a number of hexadecimal digits stands for, if there is one: the
numbers past the last code point and the surrogates stand for none. -/
def charOfCode? (n : Nat) : Option Char :=
  if n.isValidChar then some (Char.ofNat n) else none

end WorkflowTree.Yaml

import WorkflowTree.Number.Binary64
import WorkflowTree.Number.Integer

/-!
# Decimal numbers

A decimal number is written as an optional sign, digits with at most one point among or
around them, and an optional exponent. It is read as the nearest floating point number,
unless it is too great for one.
-/

namespace WorkflowTree

/-- The parts of a written decimal number: all digits, how many of them stand behind the
point, and the exponent. -/
structure Decimal where
  negative : Bool
  digits : List Char
  places : Nat
  exponent : Int
  deriving DecidableEq, Repr

namespace Decimal

/-- From this value on, further digits of an exponent do not count. -/
def exponentLimit : Nat := 0x10000

/-- The value of the digits of an exponent. -/
def exponentValue (cs : List Char) : Nat :=
  cs.foldl (fun n c => if n < exponentLimit then 10 * n + digitValue c else n) 0

/-- The exponent at the end of a number: nothing, or the letter E, a sign and digits. -/
def readExponent? : List Char → Option Int
  | [] => some 0
  | c :: cs =>
    if c = 'e' ∨ c = 'E' then
      let (negative, ds) := splitSign cs
      if !ds.isEmpty && ds.all Char.isDigit then
        some (if negative then -exponentValue ds else exponentValue ds)
      else none
    else none

/-- Reads a decimal number. -/
def read? (s : String) : Option Decimal := do
  let (negative, cs) := splitSign s.toList
  let whole := cs.takeWhile Char.isDigit
  let (places, rest) := match cs.dropWhile Char.isDigit with
    | '.' :: rest => (rest.takeWhile Char.isDigit, rest.dropWhile Char.isDigit)
    | rest => ([], rest)
  if whole.isEmpty && places.isEmpty then none
  return { negative, digits := whole ++ places, places := places.length,
           exponent := ← readExponent? rest }

/-- The floating point number nearest to a decimal number. -/
def nearest (d : Decimal) : Binary64 :=
  .ofScientific d.negative (appendDigits 0 d.digits) (d.exponent - d.places)

end Decimal

/-- The finite number that a text writes. -/
def readNumber? (s : String) : Option Binary64 :=
  ((Decimal.read? s).map Decimal.nearest).filter Binary64.isFinite

theorem readNumber?_isFinite {s : String} {x : Binary64} (h : readNumber? s = some x) :
    x.isFinite = true := (Option.filter_eq_some_iff.1 h).2

end WorkflowTree

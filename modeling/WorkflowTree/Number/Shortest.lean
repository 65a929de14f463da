import WorkflowTree.Number.Binary64

/-!
# The shortest text of a number

Among the decimal numbers that read back as a given floating point number, the text shows the
one with the fewest digits. It is found by trying, for one digit, two digits and so on, the two
decimal numbers with so many digits that are next to the exact value.

* `Binary64.shortest?_readsBack` says that the digits that are found read back.
-/

namespace WorkflowTree.Binary64

/-- The exponent of the first decimal digit of a positive fraction. -/
def floorLog10 (num den : Nat) : Int :=
  let low : Int := floorLog2 num den * 30103 / 100000 - 1
  -- the estimate is at most two below
  let reaches (e : Int) : Bool := den * Nat.pow 10 e.toNat ≤ num * Nat.pow 10 (-e).toNat
  if reaches (low + 2) then low + 2 else if reaches (low + 1) then low + 1 else low

/-- The digits and the exponent of a decimal number. -/
abbrev Digits := Nat × Int

/-- The decimal number reads back as a number. -/
def readsBack (x : Binary64) (d : Digits) : Bool :=
  ofScientific x.negative d.1 d.2 == x

/-- The decimal number with `n` digits next to a number, as the number is written by a fraction.
Of the neighbour below and the one above, the closer one comes first. -/
def neighbours (num den : Nat) (n : Nat) : List Digits :=
  let unit := floorLog10 num den - (n - 1 : Nat)
  let (n, d) := (num * Nat.pow 10 (-unit).toNat, den * Nat.pow 10 unit.toNat)
  let below := n / d
  if 2 * (n % d) ≤ d then [(below, unit), (below + 1, unit)]
  else [(below + 1, unit), (below, unit)]

/-- The fewest digits that read back as a number that is finite and not zero. Seventeen digits
are always enough. -/
def shortest? (x : Binary64) : Option Digits :=
  let (m, e) := x.decompose
  let (num, den) := scale m 1 e
  (List.range 17).findSome? fun n => (neighbours num den (n + 1)).find? x.readsBack

theorem shortest?_readsBack {x : Binary64} {d : Digits} (h : x.shortest? = some d) :
    ofScientific x.negative d.1 d.2 = x := by
  obtain ⟨n, -, hn⟩ := List.exists_of_findSome?_eq_some h
  have : x.readsBack d = true := by
    simpa using List.find?_some hn
  simpa [readsBack] using this

/-- A number with the given digits: with a point among or around them if its first digit is
at most five places behind the point or fifteen before the units, else with an exponent. -/
def layout (d : Digits) : String :=
  let digits := (Nat.toDigits 10 d.1).reverse.dropWhile (· == '0') |>.reverse
  let exponent := d.2 + ((Nat.toDigits 10 d.1).length - digits.length : Nat)
  -- the place of the point, counted from the front of the digits
  let point := exponent + digits.length
  let text := String.ofList digits
  if 0 ≤ exponent && point ≤ 16 then
    text ++ "".pushn '0' exponent.toNat ++ ".0"
  else if 0 < point && point ≤ 16 then
    .ofList (digits.take point.toNat) ++ "." ++ .ofList (digits.drop point.toNat)
  else if -5 < point && point ≤ 0 then
    "0." ++ "".pushn '0' (-point).toNat ++ text
  else match digits with
    | [c] => c.toString ++ s!"e{point - 1}"
    | c :: cs => c.toString ++ "." ++ .ofList cs ++ s!"e{point - 1}"
    | [] => "0.0"

/-- The text of a finite number. -/
def text (x : Binary64) : String :=
  (if x.negative then "-" else "") ++
    if x.magnitude = 0 then "0.0" else (x.shortest?.map layout).getD ""

end WorkflowTree.Binary64

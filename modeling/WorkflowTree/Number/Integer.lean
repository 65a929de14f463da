/-!
# Integers

Texts of digits, and the integers of 64 bits that they write. A digit is one of the ten
ASCII digits.

* `readDigits?_eq_some` says which texts write a natural number, and which one;
* `readInteger?` adds a sign and the range of 64 bits.
-/

namespace WorkflowTree

/-! ### Digits -/

/-- The value of a digit. -/
def digitValue (c : Char) : Nat := c.toNat - '0'.toNat

/-- The number that a row of digits writes behind the digits of `n`. -/
def appendDigits (n : Nat) (cs : List Char) : Nat :=
  cs.foldl (fun n c => 10 * n + digitValue c) n

/-- The number that a text of digits writes. -/
def readDigits? (cs : List Char) : Option Nat :=
  if !cs.isEmpty && cs.all Char.isDigit then some (appendDigits 0 cs) else none

theorem readDigits?_eq_some {cs : List Char} {n : Nat} :
    readDigits? cs = some n ↔
      cs ≠ [] ∧ (∀ c ∈ cs, c.isDigit = true) ∧ appendDigits 0 cs = n := by
  simp [readDigits?, and_assoc]

/-! ### Signs -/

/-- Parts an optional sign from a text: whether it is a minus, and the rest. -/
def splitSign : List Char → Bool × List Char
  | '-' :: cs => (true, cs)
  | '+' :: cs => (false, cs)
  | cs => (false, cs)

/-- The least integer of 64 bits. -/
def minInteger : Int := -0x8000000000000000

/-- The greatest integer of 64 bits. -/
def maxInteger : Int := 0x7FFFFFFFFFFFFFFF

/-- The integer of 64 bits that a text writes: an optional sign and digits. -/
def readInteger? (s : String) : Option Int := do
  let (negative, cs) := splitSign s.toList
  let n ← readDigits? cs
  let i : Int := if negative then -n else n
  if minInteger ≤ i ∧ i ≤ maxInteger then some i else none

theorem readInteger?_range {s : String} {i : Int} (h : readInteger? s = some i) :
    minInteger ≤ i ∧ i ≤ maxInteger := by
  simp only [readInteger?, Option.bind_eq_bind, Option.bind_eq_some_iff,
    Option.ite_none_right_eq_some] at h
  obtain ⟨n, -, hrange, hi⟩ := h
  exact Option.some.inj hi ▸ hrange

/-! ### Natural numbers in several bases -/

/-- The value of a digit in bases up to sixteen. -/
def hexDigitValue? (c : Char) : Option Nat :=
  if c.isDigit then some (digitValue c)
  else if 'a' ≤ c ∧ c ≤ 'f' then some (c.toNat - 'a'.toNat + 10)
  else if 'A' ≤ c ∧ c ≤ 'F' then some (c.toNat - 'A'.toNat + 10)
  else none

/-- The number that a text of digits writes in a base. -/
def readBase? (base : Nat) (cs : List Char) : Option Nat := do
  let ds ← cs.mapM fun c => (hexDigitValue? c).filter (· < base)
  if ds.isEmpty then none else some (ds.foldl (fun n d => base * n + d) 0)

/-- The greatest natural number of 64 bits. -/
def maxNatural : Nat := 0xFFFFFFFFFFFFFFFF

/-- The natural number of 64 bits that a text writes: an optional plus sign, and digits, whose
base may be given by two letters in front. Decimal digits do not start with an idle zero. -/
def readNatural? (s : String) : Option Nat :=
  let cs := match s.toList with
    | '+' :: cs => cs
    | cs => cs
  let n? := match cs with
    | '0' :: 'x' :: ds => readBase? 16 ds
    | '0' :: 'o' :: ds => readBase? 8 ds
    | '0' :: 'b' :: ds => readBase? 2 ds
    | '0' :: _ :: _ => none
    | ds => readBase? 10 ds
  n?.filter (· ≤ maxNatural)

end WorkflowTree

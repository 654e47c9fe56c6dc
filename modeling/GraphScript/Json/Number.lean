import GraphScript.Number.Decimal

/-!
# Json.Number — numbers in JSON text

- A number without point and exponent is an integer while 64 bits hold it.
- All other numbers are read in two roundings: the leading digits that 64 bits hold are rounded
  first, then scaled by a rounded power of ten. A number too large for that is refused.
-/

namespace GraphScript.Json

/-- A number as a document holds it. -/
inductive Number where
  | natural (n : Nat)
  /-- The negative integer `-n`. -/
  | negative (n : Nat)
  | float (x : Float)
  deriving DecidableEq, Inhabited

namespace Number

def toFloat : Number → Float
  | natural n => (Decimal.mk n 0).toFloat
  | negative n => -(Decimal.mk n 0).toFloat
  | float x => x

def toFloat32 : Number → Float32
  | natural n => (Decimal.mk n 0).toFloat32
  | negative n => -(Decimal.mk n 0).toFloat32
  | float x => narrow x

end Number

/-! ## Written numbers -/

structure Literal where
  negative : Bool
  /-- Digits in front of the point. -/
  whole : List Char
  /-- Digits behind the point; empty where there is no point. -/
  fraction : List Char
  /-- The exponent, where one is written. -/
  exponent : Option Int
  deriving DecidableEq

namespace Literal

/-- The largest significand: what 64 bits hold. -/
def limit : Nat := Nat.pow 2 64 - 1

/-- The leading digits as long as they stay within the limit, and the number of those behind. -/
def leading (start : Nat) : List Char → Nat × Nat
  | [] => (start, 0)
  | c :: cs =>
    let next := 10 * start + digitValue c
    if next ≤ limit then leading next cs else (start, cs.length + 1)

/-- The power of ten, itself rounded. -/
def powerOfTen (n : Nat) : Float := (Decimal.mk 1 n).toFloat

/-- Scale a significand by a power of ten; none where the result is too large. -/
def scale? (significand : Nat) (exponent : Int) : Option Float :=
  let x := (Decimal.mk significand 0).toFloat
  if significand = 0 then some 0
  else if 308 < exponent then none
  else if 0 ≤ exponent then
    let y := x * powerOfTen exponent.toNat
    if y.isInf then none else some y
  else if -308 ≤ exponent then some (x / powerOfTen exponent.natAbs)
  else if -616 ≤ exponent then some (x / powerOfTen 308 / powerOfTen (exponent.natAbs - 308))
  else some 0

/-- The number that the parts denote; none where it is out of range. -/
def number? (l : Literal) : Option Number :=
  let (significand, dropped) := leading 0 l.whole
  if dropped = 0 ∧ l.fraction.isEmpty ∧ l.exponent.isNone then
    if ¬ l.negative then some (.natural significand)
    else if 0 < significand ∧ significand ≤ Nat.pow 2 63 then some (.negative significand)
    else some (.float (-(Decimal.mk significand 0).toFloat))
  else
    let (significand, unread) := leading significand l.fraction
    let read := l.fraction.length - unread
    (scale? significand (l.exponent.getD 0 + dropped - read)).map fun x =>
      .float (if l.negative then -x else x)

/-- Read the exponent part that follows a mantissa; none where its digits are missing. -/
def exponent? : List Char → Option (Option Int × List Char)
  | [] => some (none, [])
  | c :: rest =>
    if c = 'e' ∨ c = 'E' then
      let (negative, rest) := Numeral.splitSign rest
      let (ds, rest) := spanDigits rest
      if ds.isEmpty then none
      else some (some (if negative then -(digitsValue ds : Int) else digitsValue ds), rest)
    else some (none, c :: rest)

def fraction? : List Char → Option (List Char × List Char)
  | '.' :: rest =>
    let (ds, rest) := spanDigits rest
    if ds.isEmpty then none else some (ds, rest)
  | rest => some ([], rest)

/-- Read a number from the front of a text. Superfluous leading zeros are refused. -/
def parse? (cs : List Char) : Option (Literal × List Char) := do
  let (negative, cs) := match cs with
    | '-' :: rest => (true, rest)
    | cs => (false, cs)
  let (whole, rest) := spanDigits cs
  if whole.isEmpty ∨ (whole.head? = some '0' ∧ 1 < whole.length) then none
  else
    let (fraction, rest) ← fraction? rest
    let (exponent, rest) ← exponent? rest
    some (⟨negative, whole, fraction, exponent⟩, rest)

end Literal

end GraphScript.Json

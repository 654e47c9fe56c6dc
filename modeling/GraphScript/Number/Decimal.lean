/-!
# Decimal — decimal numerals and the binary numbers nearest to them

- `Decimal` is an exact non-negative decimal: digits times a power of ten.
- `Numeral` is what a written number denotes before rounding: a signed decimal, an infinity or
  not-a-number; `Numeral.parse?` reads its written form.
- `toFloat` and `toFloat32` round once, to the nearest binary number, a tie to the even mantissa.
-/

namespace GraphScript

/-- The decimal `digits × 10 ^ exponent`. -/
structure Decimal where
  digits : Nat
  exponent : Int
  deriving DecidableEq, Repr, Inhabited

namespace Decimal

/-- The nearest 64-bit number; what lies beyond the largest one becomes infinite. -/
def toFloat (d : Decimal) : Float :=
  .ofScientific d.digits (decide (d.exponent < 0)) d.exponent.natAbs

def toFloat32 (d : Decimal) : Float32 :=
  .ofScientific d.digits (decide (d.exponent < 0)) d.exponent.natAbs

end Decimal

/-! ## Digit characters -/

def digitValue (c : Char) : Nat := c.toNat - '0'.toNat

def digitsValue (cs : List Char) : Nat :=
  cs.foldl (fun n c => 10 * n + digitValue c) 0

/-- The leading digits of a text, and what follows them. -/
def spanDigits (cs : List Char) : List Char × List Char :=
  (cs.takeWhile Char.isDigit, cs.dropWhile Char.isDigit)

/-! ## Numerals -/

inductive Magnitude where
  | finite (d : Decimal)
  | infinite
  | notANumber
  deriving DecidableEq, Repr, Inhabited

structure Numeral where
  negative : Bool
  magnitude : Magnitude
  deriving DecidableEq, Repr, Inhabited

namespace Numeral

def splitSign : List Char → Bool × List Char
  | '+' :: rest => (false, rest)
  | '-' :: rest => (true, rest)
  | cs => (false, cs)

/-- The exponent part, with which the text ends: nothing, or `e`, a sign and at least one digit. -/
def exponent? : List Char → Option Int
  | [] => some 0
  | c :: rest =>
    if c = 'e' ∨ c = 'E' then
      let (negative, rest) := splitSign rest
      let (ds, rest) := spanDigits rest
      if ds.isEmpty ∨ ¬ rest.isEmpty then none
      else some (if negative then -(digitsValue ds : Int) else digitsValue ds)
    else none

/-- Digits with at most one point among them and an exponent part: `12`, `.5`, `5.`, `1e-3`. -/
def decimal? (cs : List Char) : Option Decimal :=
  let (whole, rest) := spanDigits cs
  let (fraction, rest) :=
    match rest with
    | '.' :: rest => spanDigits rest
    | rest => ([], rest)
  if whole.isEmpty ∧ fraction.isEmpty then none
  else (exponent? rest).map fun e =>
    ⟨digitsValue (whole ++ fraction), e - fraction.length⟩

/-- A magnitude: the words `inf`, `infinity` and `nan` in any case, or a decimal. -/
def magnitude? (cs : List Char) : Option Magnitude :=
  match String.ofList (cs.map Char.toLower) with
  | "inf" => some .infinite
  | "infinity" => some .infinite
  | "nan" => some .notANumber
  | _ => (decimal? cs).map .finite

/-- Read a whole text as a number: an optional sign and a magnitude, without blanks. -/
def parse? (text : String) : Option Numeral :=
  let (negative, rest) := splitSign text.toList
  (magnitude? rest).map (⟨negative, ·⟩)

def toFloat (n : Numeral) : Float :=
  let x : Float :=
    match n.magnitude with
    | .finite d => d.toFloat
    | .infinite => 1 / 0
    | .notANumber => 0 / 0
  if n.negative then -x else x

def toFloat32 (n : Numeral) : Float32 :=
  let x : Float32 :=
    match n.magnitude with
    | .finite d => d.toFloat32
    | .infinite => 1 / 0
    | .notANumber => 0 / 0
  if n.negative then -x else x

end Numeral

/-! ## Narrowing -/

def narrow (x : Float) : Float32 :=
  match x.toModel.unpack with
  | .finite sign mantissa exponent _ => .ofModel (.pack (.round .binary32 sign mantissa exponent))
  | special => .ofModel (.pack special)

end GraphScript

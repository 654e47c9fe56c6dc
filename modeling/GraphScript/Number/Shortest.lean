import GraphScript.Number.Decimal

/-!
# Shortest — the shortest decimal that reads back as a given binary number

- A finite binary number is `mantissa × 2 ^ exponent`, an exact fraction.
- The search walks over decimal grids from coarse to fine. On each grid it tests the two
  neighbours of the number; the first grid with a neighbour that reads back wins, and of two such
  neighbours the nearer. `Tie` decides when both are equally near.
- Should no grid win, the exact decimal expansion is the answer.
-/

namespace GraphScript

/-- Which of two equally near neighbours is written. -/
inductive Tie where
  | away
  | even
  deriving DecidableEq, Repr

/-- A positive finite binary number, `mantissa × 2 ^ exponent`. -/
structure Binary where
  mantissa : Nat
  exponent : Int
  deriving DecidableEq, Repr

namespace Binary

def numerator (b : Binary) : Nat := b.mantissa * Nat.pow 2 b.exponent.toNat

def denominator (b : Binary) : Nat := Nat.pow 2 (-b.exponent).toNat

/-- The exact value as a decimal; every binary fraction has one. -/
def toDecimal (b : Binary) : Decimal :=
  if 0 ≤ b.exponent then ⟨b.numerator, 0⟩
  else ⟨b.mantissa * Nat.pow 5 (-b.exponent).toNat, b.exponent⟩

/-- A power of ten above the value: `10 ^ topGrid`. -/
def topGrid (b : Binary) : Int :=
  ((b.mantissa.log2 + 1 + b.exponent) * 30103) / 100000 + 1

/-- The neighbours of the value on the grid of multiples of `10 ^ grid`, the preferred one first. -/
def neighbours (b : Binary) (tie : Tie) (grid : Int) : List Decimal :=
  let num := b.numerator * Nat.pow 10 (-grid).toNat
  let den := b.denominator * Nat.pow 10 grid.toNat
  let below := num / den
  let rest := num % den
  if rest = 0 then [⟨below, grid⟩]
  else
    let upperFirst :=
      match compare (2 * rest) den, tie with
      | .lt, _ => false
      | .gt, _ => true
      | .eq, .away => true
      | .eq, .even => below % 2 = 1
    if upperFirst then [⟨below + 1, grid⟩, ⟨below, grid⟩]
    else [⟨below, grid⟩, ⟨below + 1, grid⟩]

/-- Try `fuel` grids, from `grid` to finer ones. -/
def search (b : Binary) (tie : Tie) (readsBack : Decimal → Bool) : Nat → Int → Option Decimal
  | 0, _ => none
  | fuel + 1, grid =>
    match (b.neighbours tie grid).find? readsBack with
    | some d => some d
    | none => search b tie readsBack fuel (grid - 1)

/-- The shortest decimal that reads back, or the exact expansion where 24 grids show none. -/
def shortest (b : Binary) (tie : Tie) (readsBack : Decimal → Bool) : Decimal :=
  (b.search tie readsBack 24 b.topGrid).getD b.toDecimal

end Binary

/-! ## The numbers of both widths -/

/-- A binary number taken apart, with the decimal to write for its magnitude. -/
structure Taken where
  negative : Bool
  magnitude : Magnitude
  deriving DecidableEq, Repr

open Float.Model in
/-- Take a number apart; `reads` tells which decimals read back as its magnitude. -/
def Taken.ofUnpacked (tie : Tie) (reads : Decimal → Bool) : UnpackedFloat → Taken
  | .notANumber => ⟨false, .notANumber⟩
  | .infinity sign => ⟨sign == .negative, .infinite⟩
  | .zero sign => ⟨sign == .negative, .finite ⟨0, 0⟩⟩
  | .finite sign mantissa exponent _ =>
    ⟨sign == .negative, .finite (Binary.shortest ⟨mantissa, exponent⟩ tie reads)⟩

def Taken.ofFloat (tie : Tie) (x : Float) : Taken :=
  .ofUnpacked tie (fun d => d.toFloat == x.abs) x.toModel.unpack

def Taken.ofFloat32 (tie : Tie) (x : Float32) : Taken :=
  .ofUnpacked tie (fun d => d.toFloat32 == x.abs) x.toModel.unpack

end GraphScript

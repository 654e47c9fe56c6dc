import GraphScript.Number.Shortest

/-!
# Layout — how numbers are written

- A `Layout` holds a format's decisions: where positional notation ends, whether whole numbers
  keep a point, how an exponent is marked and what stands for infinity and not-a-number.
- All layouts write the shortest digits that read back.
-/

namespace GraphScript

/-- The decisions of a number format. -/
structure Layout where
  /-- Decimal exponents from the first to below the second are written positionally; `none`: all. -/
  positional : Option (Int × Int) := none
  /-- Whole numbers in positional notation end in `.0`. -/
  pointZero : Bool := false
  /-- A positive exponent carries a plus sign. -/
  plusSign : Bool := false
  tie : Tie := .away
  infinite : String := "inf"
  notANumber : String := "NaN"
  /-- An infinity below zero carries a minus sign. -/
  signedInfinity : Bool := true
  /-- A not-a-number shows its minus sign. -/
  signedNaN : Bool := false
  deriving Repr

namespace Layout

def zeros (n : Nat) : String := String.ofList (List.replicate n '0')

/-- Digits without trailing zeros, and how many were dropped. -/
def stripZeros (ds : List Char) : List Char × Nat :=
  let kept := (ds.reverse.dropWhile (· == '0')).reverse
  (kept, ds.length - kept.length)

/-- Write digits so that the point stands behind the first `point` of them. -/
def positionalText (pointZero : Bool) (ds : List Char) (point : Int) : String :=
  if point ≤ 0 then
    "0." ++ zeros (-point).toNat ++ String.ofList ds
  else if ds.length ≤ point.toNat then
    String.ofList ds ++ zeros (point.toNat - ds.length) ++ (if pointZero then ".0" else "")
  else
    String.ofList (ds.take point.toNat) ++ "." ++ String.ofList (ds.drop point.toNat)

/-- Write digits with the point behind the first one, and an exponent. -/
def exponentText (plusSign : Bool) (ds : List Char) (exponent : Int) : String :=
  let fraction := ds.drop 1
  let sign := if exponent < 0 then "-" else if plusSign then "+" else ""
  String.ofList (ds.take 1) ++ (if fraction.isEmpty then "" else "." ++ String.ofList fraction)
    ++ "e" ++ sign ++ toString exponent.natAbs

def decimalText (l : Layout) (d : Decimal) : String :=
  if d.digits = 0 then (if l.pointZero then "0.0" else "0")
  else
    let (ds, dropped) := stripZeros (toString d.digits).toList
    let point : Int := ds.length + dropped + d.exponent
    let inside :=
      match l.positional with
      | none => true
      | some (low, high) => low ≤ point - 1 ∧ point - 1 < high
    if inside then positionalText l.pointZero ds point
    else exponentText l.plusSign ds (point - 1)

def takenText (l : Layout) (t : Taken) : String :=
  match t.magnitude with
  | .notANumber => if t.negative ∧ l.signedNaN then "-" ++ l.notANumber else l.notANumber
  | .infinite => if t.negative ∧ l.signedInfinity then "-" ++ l.infinite else l.infinite
  | .finite d => if t.negative then "-" ++ l.decimalText d else l.decimalText d

def floatText (l : Layout) (x : Float) : String := l.takenText (.ofFloat l.tie x)

def float32Text (l : Layout) (x : Float32) : String := l.takenText (.ofFloat32 l.tie x)

/-- Numbers in messages: positional throughout, and whole numbers without a point. -/
def plain : Layout := {}

/-- Numbers in inspection texts: at least one decimal place, and an exponent from `1e16` on and
below `0.0001`. -/
def inspected : Layout := { positional := some (-4, 16), pointZero := true }

end Layout

end GraphScript

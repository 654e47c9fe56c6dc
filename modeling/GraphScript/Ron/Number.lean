import GraphScript.Number.Signed
import GraphScript.Ron.Name
import GraphScript.Ron.Quoted

/-!
# Ron.Number — numbers in RON text

- Integers may be binary, octal, decimal or hexadecimal; underscores may separate their digits. A
  byte in quotation marks is an integer too.
- Numbers with a point or an exponent are decimal; `inf` and `NaN` stand for themselves.
- A suffix such as `u8` or `f32` names the width of a number. Integers have to fit theirs, and none
  stands behind octal and hexadecimal digits.
-/

namespace GraphScript.Ron

/-! ## Integers -/

/-- A width that an integer may name, and the range that it allows. -/
structure Width where
  suffix : String
  /-- The magnitude allowed below zero. -/
  below : Nat
  /-- The largest number allowed. -/
  top : Nat

def Width.unsigned (suffix : String) (bits : Nat) : Width := ⟨suffix, 0, Nat.pow 2 bits - 1⟩

def Width.signed (suffix : String) (bits : Nat) : Width :=
  ⟨suffix, Nat.pow 2 (bits - 1), Nat.pow 2 (bits - 1) - 1⟩

def byteWidth : Width := .unsigned "u8" 8

def naturalWidth : Width := .unsigned "u64" 64

def widths : List Width :=
  [.signed "i8" 8, .signed "i16" 16, .signed "i32" 32, .signed "i64" 64,
   byteWidth, .unsigned "u16" 16, .unsigned "u32" 32, naturalWidth]

def Width.holds (w : Width) (negative : Bool) (magnitude : Nat) : Bool :=
  magnitude ≤ if negative then w.below else w.top

/-- Split the width that stands at the front of a text off it. -/
def splitWidth (cs : List Char) : Option Width × List Char :=
  let (suffix, rest) := spanChars isIdentifierTail cs
  match widths.find? (·.suffix.toList = suffix) with
  | some w => (some w, rest)
  | none => (none, cs)

structure Base where
  /-- What stands in front of the digits. -/
  mark : String
  base : Nat
  /-- May a width stand behind the digits? -/
  takesWidth : Bool

def baseOf : List Char → Base
  | '0' :: 'b' :: _ => ⟨"0b", 2, true⟩
  | '0' :: 'o' :: _ => ⟨"0o", 8, false⟩
  | '0' :: 'x' :: _ => ⟨"0x", 16, false⟩
  | _ => ⟨"", 10, true⟩

/-- Digits of all bases, and underscores. -/
def isDigitChar (c : Char) : Bool := (digit? c).isSome || c = '_'

/-- The integer that digits and underscores spell; the first one is no underscore. -/
def magnitude? (base : Nat) : List Char → Option Nat
  | [] => none
  | '_' :: _ => none
  | ds => digits? base 0 (ds.filter (· ≠ '_'))

/-- An integer: its sign, its magnitude and the width that it names. -/
structure Whole where
  negative : Bool
  magnitude : Nat
  width : Option Width

def digitsWhole? (cs : List Char) : Option (Whole × List Char) := do
  let (negative, cs) := Numeral.splitSign cs
  let base := baseOf cs
  let (ds, rest) := spanChars isDigitChar (cs.drop base.mark.length)
  let magnitude ← magnitude? base.base ds
  let (width, rest) := if base.takesWidth then splitWidth rest else (none, rest)
  if width.all (·.holds negative magnitude) then some (⟨negative, magnitude, width⟩, rest)
  else none

def whole? (cs : List Char) : Option (Whole × List Char) :=
  match cs with
  | 'b' :: '\x27' :: _ => (byte? cs).map fun (n, rest) => (⟨false, n, some byteWidth⟩, rest)
  | _ => digitsWhole? cs

/-- Does the integer name no width but that of natural numbers? -/
def Whole.isNatural (w : Whole) : Bool := w.width.all (·.suffix = naturalWidth.suffix)

def Whole.natural? (w : Whole) : Option Nat :=
  if naturalWidth.holds w.negative w.magnitude then some w.magnitude else none

/-- The integer as a number, where 64 bits hold it. -/
def Whole.number? (w : Whole) : Option Float :=
  let x := (Decimal.mk w.magnitude 0).toFloat
  if w.magnitude = 0 then some 0
  else if w.negative then if w.magnitude ≤ Nat.pow 2 63 then some (-x) else none
  else if w.magnitude < Nat.pow 2 64 then some x else none

/-! ## Decimals -/

/-- Drop underscores; one may stand behind a digit or an exponent mark, not behind the point. -/
def dropUnderscores? (allowed : Bool) : List Char → Option (List Char)
  | [] => some []
  | '_' :: cs => if allowed then dropUnderscores? allowed cs else none
  | c :: cs =>
    let allowed :=
      if c.isDigit ∨ c = 'e' ∨ c = 'E' then true
      else if c = '.' then false
      else allowed
    (dropUnderscores? allowed cs).map (c :: ·)

/-- The characters of decimals, and underscores. -/
def isDecimalChar (c : Char) : Bool :=
  c.isDigit || c = 'e' || c = 'E' || c = '.' || c = '+' || c = '-' || c = '_'

inductive RealWidth where
  /-- 32 bits. -/
  | narrow
  /-- 64 bits. -/
  | wide
  deriving DecidableEq

structure Real where
  numeral : Numeral
  width : Option RealWidth

def splitRealWidth (cs : List Char) : Option RealWidth × List Char :=
  let (suffix, rest) := spanChars isIdentifierTail cs
  match String.ofList suffix with
  | "f32" => (some .narrow, rest)
  | "f64" => (some .wide, rest)
  | _ => (none, cs)

/-- Read a number that is a name, perhaps with a width. -/
def namedMagnitude? (cs : List Char) : Option (Magnitude × List Char) :=
  let word := String.ofList (cs.takeWhile isIdentifierTail)
  if ["inf", "inff32", "inff64"].contains word then some (.infinite, cs.drop "inf".length)
  else if ["NaN", "NaNf32", "NaNf64"].contains word then some (.notANumber, cs.drop "NaN".length)
  else none

def decimal? (cs : List Char) : Option (Numeral × List Char) := do
  let (word, rest) := spanChars isDecimalChar cs
  let (negative, body) := Numeral.splitSign (← dropUnderscores? false word)
  let d ← Numeral.decimal? body
  some (⟨negative, .finite d⟩, rest)

def real? (cs : List Char) : Option (Real × List Char) := do
  let (negative, body) := Numeral.splitSign cs
  let (numeral, rest) ←
    match namedMagnitude? body with
    | some (magnitude, rest) => some (⟨negative, magnitude⟩, rest)
    | none => decimal? cs
  let (width, rest) := splitRealWidth rest
  some (⟨numeral, width⟩, rest)

def widen (x : Float32) : Float :=
  match x.toModel.unpack with
  | .finite sign mantissa exponent _ => .ofModel (.pack (.round .binary64 sign mantissa exponent))
  | special => .ofModel (.pack special)

/-- Does a point or a signed exponent follow the digits at the front of a text? -/
def startsDecimal (cs : List Char) : Bool :=
  let (_, body) := Numeral.splitSign cs
  (body.takeWhile isDigitChar).length < (body.takeWhile isDecimalChar).length

def wholeNumber? (cs : List Char) : Option (Float × List Char) := do
  let (w, rest) ← whole? cs
  let x ← w.number?
  some (x, rest)

/-- Read the number in a place for any value: an integer, or else a decimal. -/
def anyNumber? (cs : List Char) : Option (Signed Float × List Char) :=
  match if startsDecimal cs then none else wholeNumber? cs with
  | some (x, rest) => some (.plain x, rest)
  | none => do
    let (r, rest) ← real? cs
    match r.width with
    | some .narrow => some ((r.numeral.signed Numeral.toFloat32).map widen, rest)
    | _ => some (r.numeral.signed Numeral.toFloat, rest)

end GraphScript.Ron

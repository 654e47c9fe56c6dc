import GraphScript.Number.Layout

/-!
# Signed — numbers as files keep them

- Floats know one not-a-number, files two: `NaN` and `-NaN`. A `Signed` number is a float or the
  second of these, so that what was read is written again.
- `float` and `float32` forget the difference; nothing but a written form shows it.
-/

namespace GraphScript

/-- A float of type `φ`, or the not-a-number that carries a minus sign. -/
inductive Signed (φ : Type) where
  | plain (x : φ)
  | negativeNaN
  deriving DecidableEq

namespace Signed

instance {φ : Type} : Coe φ (Signed φ) := ⟨plain⟩

def float : Signed Float → Float
  | plain x => x
  | negativeNaN => 0 / 0

def float32 : Signed Float32 → Float32
  | plain x => x
  | negativeNaN => 0 / 0

/-- Change the number, but no `-NaN`. -/
def map {φ ψ : Type} (f : φ → ψ) : Signed φ → Signed ψ
  | plain x => plain (f x)
  | negativeNaN => negativeNaN

end Signed

def Numeral.signed {φ : Type} (round : Numeral → φ) (n : Numeral) : Signed φ :=
  if n.negative ∧ n.magnitude = .notANumber then .negativeNaN else .plain (round n)

def Layout.signedText (l : Layout) : Signed Float → String
  | .plain x => l.floatText x
  | .negativeNaN => l.takenText ⟨true, .notANumber⟩

def Layout.signed32Text (l : Layout) : Signed Float32 → String
  | .plain x => l.float32Text x
  | .negativeNaN => l.takenText ⟨true, .notANumber⟩

end GraphScript

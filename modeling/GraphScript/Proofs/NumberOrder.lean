import GraphScript.Value

/-!
# NumberOrder — the order of 64-bit numbers

A number that is not a number has no place in the order; all others have one, and both zeros share theirs.

- `lt_iff_compare` and `beq_iff_compare` — less and equal are two answers of one comparison;
- `compareNumbers_eq` — `compareNumbers` is that comparison;
- `compareNumbers_swap` — with its operands exchanged it answers in reverse.
-/

namespace GraphScript

open Float.Model UnpackedFloat

variable {x y : Float}

/-- The order of 64-bit numbers is that of their parts. -/
theorem lt_iff_compare : x < y ↔ x.toModel.unpack.compare y.toModel.unpack = some .lt := by
  simp [LT.lt, Float.lt, Float.Model.lt, UnpackedFloat.lt]

theorem beq_iff_compare :
    (x == y) = true ↔ x.toModel.unpack.compare y.toModel.unpack = some .eq := by
  change (x.toModel.unpack.compare y.toModel.unpack == some .eq) = true ↔ _
  exact beq_iff_eq

/-- Exponents are compared first, and mantissas decide between equal ones. -/
theorem compare_then_swap (m m' : Nat) (e e' : Int) :
    (compare e' e).then (compare m' m) = ((compare e e').then (compare m m')).swap := by
  rw [Ordering.swap_then, ← Std.OrientedOrd.eq_swap, ← Std.OrientedOrd.eq_swap]

/-- Comparing from the other side turns the answer round; a value that is no number has none. -/
theorem compare_swap (a b : UnpackedFloat) : b.compare a = (a.compare b).map Ordering.swap := by
  cases a with
  | notANumber => cases b <;> rfl
  | infinity s =>
    cases b with
    | infinity s' => cases s <;> cases s' <;> rfl
    | _ => cases s <;> rfl
  | zero s =>
    cases b with
    | infinity s' => cases s' <;> rfl
    | finite s' => cases s' <;> rfl
    | _ => rfl
  | finite s m e _ =>
    cases b with
    | notANumber => rfl
    | infinity s' => cases s' <;> rfl
    | zero s' => cases s <;> rfl
    | finite s' m' e' _ =>
      have hlarger := compare_then_swap m m' e e'
      cases s with
      | positive =>
        cases s' with
        | positive => exact congrArg some hlarger
        | negative => rfl
      | negative =>
        cases s' with
        | positive => rfl
        | negative => exact congrArg (fun order => some order.swap) hlarger

/-- The comparison of numbers asks twice, and comes to what one look at the parts says. -/
theorem compareNumbers_eq (x y : Float) :
    compareNumbers x y = x.toModel.unpack.compare y.toModel.unpack := by
  have hback := compare_swap x.toModel.unpack y.toModel.unpack
  simp only [compareNumbers, lt_iff_compare, beq_iff_compare, hback]
  rcases x.toModel.unpack.compare y.toModel.unpack with _ | _ | _ | _ <;> rfl

theorem compareNumbers_swap (x y : Float) :
    compareNumbers y x = (compareNumbers x y).map Ordering.swap := by
  rw [compareNumbers_eq, compareNumbers_eq, compare_swap]

theorem compareNumbers_eq_iff : compareNumbers x y = some .eq ↔ (x == y) = true := by
  rw [compareNumbers_eq, beq_iff_compare]

end GraphScript

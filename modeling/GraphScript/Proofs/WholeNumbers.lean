import GraphScript.Proofs.NumberOrder
import Mathlib

/-!
# WholeNumbers — natural numbers among the 64-bit numbers

Times are counted in 64-bit numbers.  As long as they are natural numbers that such a number can hold,
nothing is rounded.

- `Exact` — the natural numbers that a 64-bit number can hold; `Denotes` — the number that one holds;
- `normalize_exact` — what is exact is not rounded;
- `Denotes.add`, `Denotes.sub`, `Denotes.mul_one`, `Denotes.lt_iff` — arithmetic on numbers that hold
  natural numbers is arithmetic on these.
-/

namespace GraphScript

open Float.Model UnpackedFloat

/-- A 64-bit number can hold the natural number: 53 binary digits, and zeros behind them. -/
def Exact (n : Nat) : Prop := ∃ m e : Nat, m < 2 ^ 53 ∧ e ≤ 971 ∧ n = m * 2 ^ e

/-- The 64-bit number is the natural number. -/
def Denotes (x : Float) (n : Nat) : Prop :=
  match x.toModel.unpack with
  | .zero .positive => n = 0
  | .finite .positive mantissa exponent _ => (n : ℚ) = mantissa * (2 : ℚ) ^ exponent
  | _ => False

/-! ## Mantissa and exponent -/

/-- Mantissa and exponent with which the number is kept: all 53 digits of the mantissa are used. -/
structure Kept (n mantissa : Nat) (exponent : Int) : Prop where
  large : 2 ^ 52 ≤ mantissa
  small : mantissa < 2 ^ 53
  low : -1074 ≤ exponent
  high : exponent ≤ 971
  value : (n : ℚ) = mantissa * (2 : ℚ) ^ exponent

namespace Kept

variable {n mantissa : Nat} {exponent : Int}

theorem pos (h : Kept n mantissa exponent) : 0 < mantissa :=
  Nat.lt_of_lt_of_le (Nat.two_pow_pos 52) h.large

theorem pos_value (h : Kept n mantissa exponent) : 0 < n := by
  have hvalue : (0 : ℚ) < n := by
    rw [h.value]
    exact mul_pos (by exact_mod_cast h.pos) (zpow_pos two_pos _)
  exact_mod_cast hvalue

theorem log2_eq (h : Kept n mantissa exponent) : mantissa.log2 = 52 :=
  (Nat.log2_eq_iff h.pos.ne').2 ⟨h.large, h.small⟩

end Kept

/-- The same number with an exponent that is smaller by `k`. -/
theorem shift_value (m k : Nat) (e : Int) :
    ((m * 2 ^ k : Nat) : ℚ) * (2 : ℚ) ^ e = m * (2 : ℚ) ^ (e + k) := by
  rw [zpow_add₀ two_ne_zero, zpow_natCast]
  push_cast
  ring

/-- Every positive number that can be held is kept with some mantissa and exponent. -/
theorem exists_kept {n : Nat} (h : Exact n) (hn : 0 < n) : ∃ m e, Kept n m e := by
  rcases h with ⟨m, e, hm, he, rfl⟩
  have hpos : 0 < m := Nat.pos_of_mul_pos_right hn
  have hlog : m.log2 ≤ 52 := Nat.le_of_lt_succ ((Nat.log2_lt hpos.ne').2 hm)
  -- Zeros are put behind the digits until all of them are used.
  let k := 52 - m.log2
  have hfirst : 2 ^ m.log2 ≤ m := Nat.log2_self_le hpos.ne'
  have hlast : m < 2 ^ (m.log2 + 1) := Nat.lt_log2_self
  refine ⟨m * 2 ^ k, (e : Int) - k, ?_, ?_, by omega, by omega, ?_⟩
  · calc 2 ^ 52 = 2 ^ m.log2 * 2 ^ k := by rw [← pow_add]; congr 1; omega
      _ ≤ m * 2 ^ k := Nat.mul_le_mul_right _ hfirst
  · calc m * 2 ^ k < 2 ^ (m.log2 + 1) * 2 ^ k := Nat.mul_lt_mul_of_pos_right hlast (Nat.two_pow_pos k)
      _ = 2 ^ 53 := by rw [← pow_add]; congr 1; omega
  · rw [shift_value, sub_add_cancel, zpow_natCast]
    push_cast
    rfl

/-- What divides a number that can be held can be held as well. -/
theorem Exact.of_dvd {n k : Nat} (h : Exact n) (hn : 0 < n) (hk : k ∣ n) : Exact k := by
  rcases h with ⟨m, e, hm, he, rfl⟩
  rcases Nat.dvd_mul.1 hk with ⟨a, b, ha, hb, rfl⟩
  rcases (Nat.dvd_prime_pow Nat.prime_two).1 hb with ⟨i, hi, rfl⟩
  have hle : a ≤ m := Nat.le_of_dvd (Nat.pos_of_mul_pos_right hn) ha
  exact ⟨a, i, Nat.lt_of_le_of_lt hle hm, hi.trans he, rfl⟩

/-! ## Numbers as they are stored -/

/-- A number that is taken out of its storage uses all digits, or is below the smallest exponent. -/
theorem digits_unpack {x : Float.Model} {sign : Sign} {m : Nat} {e : Int} {hm : 0 < m}
    (h : x.unpack = .finite sign m e hm) :
    m < 2 ^ 53 ∧ -1074 ≤ e ∧ e ≤ 971 ∧ (2 ^ 52 ≤ m ∨ e = -1074) := by
  let bits : BitVec Format.binary64.numBits := x.toBits.toBitVec
  have hexponent : (unpackExponent bits).toNat < 2 ^ 11 := (unpackExponent bits).isLt
  have hmantissa : (unpackMantissa bits).toNat < 2 ^ 52 := (unpackMantissa bits).isLt
  change UnpackedFloat.unpack .binary64 bits = _ at h
  rw [UnpackedFloat.unpack] at h
  split at h
  · -- All ones are stored as the exponent: the number is not finite.
    split at h <;> cases h
  case isFalse hlast =>
  split at h
  case isTrue hzero =>
    split at h
    · cases h
    · -- Zero is stored as the exponent: the digits are those that are stored.
      injection h with _ hm he
      simp only [hzero] at he
      have hlow : e = -1074 := he.symm.trans (by decide)
      have hless : m < 2 ^ 52 := hm ▸ hmantissa
      exact ⟨hless.trans (by decide), hlow.ge, hlow.le.trans (by decide), Or.inr hlow⟩
  case isFalse hzero =>
    -- Else a one stands before the digits that are stored, so all digits are used.
    injection h with _ hm he
    have hnotLast : (unpackExponent bits).toNat ≠ 2 ^ 11 - 1 :=
      fun hall => hlast (BitVec.toNat_inj.1 hall)
    have hnotZero : (unpackExponent bits).toNat ≠ 0 := fun hall => hzero (BitVec.toNat_inj.1 hall)
    have hfirst : m = 2 ^ 52 + (unpackMantissa bits).toNat := by
      rw [← hm, BitVec.toNat_append, ← Nat.shiftLeft_add_eq_or_of_lt (unpackMantissa bits).isLt]
      rfl
    have hlater : e = (unpackExponent bits).toNat - 1075 := he.symm
    omega

/-- A natural number that is held is zero, or kept with all digits. -/
theorem Denotes.cases {x : Float} {n : Nat} (h : Denotes x n) :
    (n = 0 ∧ x.toModel.unpack = .zero .positive) ∨
      ∃ m e hm, x.toModel.unpack = .finite .positive m e hm ∧ Kept n m e := by
  rw [Denotes] at h
  split at h
  · rename_i hx
    exact Or.inl ⟨h, hx⟩
  · rename_i m e hm hx
    rcases digits_unpack hx with ⟨hsmall, hlow, hhigh, hlarge⟩
    refine Or.inr ⟨m, e, hm, hx, hlarge.resolve_right ?_, hsmall, hlow, hhigh, h⟩
    -- Below the smallest exponent there is no natural number but zero.
    rintro rfl
    have hone : (1 : ℚ) ≤ n := by
      rw [Nat.one_le_cast, Nat.one_le_iff_ne_zero]
      rintro rfl
      rw [Nat.cast_zero, zero_eq_mul, Nat.cast_eq_zero] at h
      exact h.elim hm.ne' (zpow_ne_zero _ two_ne_zero)
    have hless : (m : ℚ) * (2 : ℚ) ^ (-1074 : Int) < 1 := by
      have hm' : (m : ℚ) < (2 : ℚ) ^ (53 : Int) := by exact_mod_cast hsmall
      calc (m : ℚ) * (2 : ℚ) ^ (-1074 : Int) < (2 : ℚ) ^ (53 : Int) * (2 : ℚ) ^ (-1074 : Int) :=
            mul_lt_mul_of_pos_right hm' (by positivity)
        _ = (2 : ℚ) ^ (-1021 : Int) := by rw [← zpow_add₀ two_ne_zero]; rfl
        _ ≤ 1 := zpow_le_one_of_nonpos₀ one_le_two (by decide)
    exact absurd hone (by rw [h]; exact hless.not_ge)
  · exact h.elim

/-- What is kept with all digits is taken out of its storage as it was put in. -/
theorem unpack_pack_of_kept {n m : Nat} {e : Int} (h : Kept n m e) :
    (Float.Model.pack (.finite .positive m e h.pos)).unpack = .finite .positive m e h.pos := by
  have hlarge := h.large
  have hsmall := h.small
  have hlow := h.low
  have hhigh := h.high
  have hbias : (Format.binary64.exponentBias : Int) = 1023 := rfl
  have hstored : (e + Format.binary64.exponentBias + (52 : Nat)).toNat = (e + 1075).toNat := by omega
  -- The exponent is stored as a number between the two that mean something else.
  let stored := BitVec.ofNat 11 (e + 1075).toNat
  have hexponent : stored.toNat = (e + 1075).toNat := by
    rw [BitVec.toNat_ofNat, Nat.mod_eq_of_lt (by omega)]
  have hnotLast : stored ≠ -1#11 := by
    intro heq
    have : stored.toNat = 2 ^ 11 - 1 := congrArg BitVec.toNat heq
    omega
  have hnotZero : stored ≠ 0#11 := by
    intro heq
    have : stored.toNat = 0 := congrArg BitVec.toNat heq
    omega
  -- The leading one is not stored, and comes back with the rest of the digits.
  have hmantissa : (1#1 ++ BitVec.ofNat 52 m).toNat = m := by
    rw [BitVec.toNat_append, ← Nat.shiftLeft_add_eq_or_of_lt (BitVec.ofNat 52 m).isLt,
      BitVec.toNat_ofNat]
    change 2 ^ 52 + m % 2 ^ 52 = m
    omega
  have hpacked : UnpackedFloat.pack .binary64 (.finite .positive m e h.pos) =
      packComponents .binary64 .positive stored (BitVec.ofNat 52 m) := by
    have hroom : ¬ 2 ^ 11 ≤ (e + 1075).toNat + 1 := by omega
    rw [UnpackedFloat.pack]
    simp only [h.log2_eq, hstored, hroom, if_false]
    exact if_pos rfl
  change UnpackedFloat.unpack .binary64 (UnpackedFloat.pack .binary64 _) = _
  rw [hpacked, UnpackedFloat.unpack]
  simp only [unpackMantissa_packComponents, unpackExponent_packComponents, unpackSign_packComponents,
    Sign.ofBitVec_toBitVec, hnotLast, hnotZero, if_false, hmantissa, hexponent]
  simp only [UnpackedFloat.finite.injEq, true_and]
  omega

/-- What is packed with its digits is the number that they are of. -/
theorem denotes_pack {n m : Nat} {e : Int} (h : Kept n m e) :
    Denotes (.ofModel (.pack (.finite .positive m e h.pos))) n := by
  rw [Denotes]
  simp only [unpack_pack_of_kept h]
  exact h.value

theorem denotes_zero : Denotes 0 0 := rfl

theorem denotes_one : Denotes 1 1 := by
  have hone : (1 : Float).toModel.unpack = .finite .positive (2 ^ 52) (-52) (by decide) := rfl
  rw [Denotes]
  simp only [hone]
  norm_num

/-! ## Rounding -/

theorem log2_mul_two_pow {m : Nat} (hm : 0 < m) (k : Nat) : (m * 2 ^ k).log2 = m.log2 + k := by
  induction k with
  | zero => simp
  | succ k ih =>
    rw [pow_succ', Nat.mul_left_comm, Nat.log2_two_mul (Nat.mul_pos hm (Nat.two_pow_pos k)).ne', ih,
      Nat.add_assoc]

theorem targetExponent_eq (m : Nat) (e : Int) :
    Format.binary64.targetExponent (totalExponent m e) = max (m.log2 + e - 52) (-1074) := by
  have hbits : (Format.binary64.mantissaBits : Int) = 53 := rfl
  have hmin : Format.binary64.minExponent = -1074 := by decide
  rw [Format.targetExponent, totalExponent, hbits, hmin]
  congr 1
  omega

/-- Zeros behind the digits are shifted out, and none of the digits is lost. -/
theorem shiftRight_zeros (m k : Nat) :
    (ExtendedMantissa.mk (m * 2 ^ k) false false) >>> k = ExtendedMantissa.mk m false false := by
  induction k generalizing m with
  | zero => simp [HShiftRight.hShiftRight, Nat.repeat]
  | succ k ih =>
    -- All but the last of the zeros are shifted out first.
    have hstep : (ExtendedMantissa.mk (m * 2 ^ (k + 1)) false false) >>> (k + 1) =
        ((ExtendedMantissa.mk (m * 2 * 2 ^ k) false false) >>> k).shiftRightOne := by
      rw [Nat.mul_assoc, ← pow_succ']
      rfl
    rw [hstep, ih]
    simp [ExtendedMantissa.shiftRightOne]

namespace Kept

variable {n m : Nat} {e : Int}

/-- The digits that are used decide how a number with more digits behind them is shifted. -/
theorem shiftToTargetExponent_eq (h : Kept n m e) (k : Nat) :
    shiftToTargetExponent .binary64 (m * 2 ^ k) (e - k) .exact =
      (ExtendedMantissa.mk m false false, e) := by
  have hlow := h.low
  have htarget : max (((m * 2 ^ k).log2 : Int) + (e - k) - 52) (-1074) = e := by
    rw [log2_mul_two_pow h.pos, h.log2_eq]
    omega
  have hamount : (e - (e - k)).toNat = k := by omega
  rw [shiftToTargetExponent, targetExponent_eq, htarget, shiftToExponent, hamount]
  exact Prod.ext (shiftRight_zeros m k) (by simp)

/-- Rounding gives back the digits that are used. -/
theorem roundWithAccuracy_eq (h : Kept n m e) (k : Nat) :
    roundWithAccuracy .binary64 .positive (m * 2 ^ k) (e - k) .exact =
      .finite .positive m e h.pos := by
  -- What is rounded is shifted once more, as rounding up might have made a digit too many.
  have hagain := h.shiftToTargetExponent_eq 0
  rw [pow_zero, Nat.mul_one, Nat.cast_zero, sub_zero] at hagain
  have hrounded : (ExtendedMantissa.mk m false false).roundedMantissa = m := rfl
  simp only [roundWithAccuracy, h.shiftToTargetExponent_eq k, hrounded, hagain, h.pos.ne',
    dite_false]

/-- Two ways to write the same number differ by the zeros behind the digits. -/
theorem mantissa_eq (h : Kept n m e) {mantissa : Nat} {exponent : Int}
    (hvalue : (mantissa : ℚ) * (2 : ℚ) ^ exponent = n) :
    (∃ k : Nat, mantissa = m * 2 ^ k ∧ exponent = e - k) ∨
      ∃ k : Nat, m = mantissa * 2 ^ k ∧ exponent = e + k := by
  have hvalue := hvalue.trans h.value
  rcases le_total exponent e with hle | hle
  · obtain ⟨k, rfl⟩ := Int.le.dest hle
    rw [← shift_value] at hvalue
    have hsame := mul_right_cancel₀ (zpow_ne_zero exponent two_ne_zero) hvalue
    exact Or.inl ⟨k, by exact_mod_cast hsame, by omega⟩
  · obtain ⟨k, rfl⟩ := Int.le.dest hle
    rw [← shift_value] at hvalue
    have hsame := mul_right_cancel₀ (zpow_ne_zero e two_ne_zero) hvalue
    exact Or.inr ⟨k, by exact_mod_cast hsame.symm, rfl⟩

/-- However a number is written, it is rounded to its own digits. -/
theorem round_eq (h : Kept n m e) {mantissa : Nat} {exponent : Int}
    (hvalue : (mantissa : ℚ) * (2 : ℚ) ^ exponent = n) :
    UnpackedFloat.round .binary64 .positive mantissa exponent = .finite .positive m e h.pos := by
  have hlow := h.low
  have hlog := h.log2_eq
  rw [UnpackedFloat.round, targetExponent_eq, decreaseExponent]
  rcases h.mantissa_eq hvalue with ⟨k, rfl, rfl⟩ | ⟨k, rfl, rfl⟩
  · -- The digits are enough, and the zeros behind them are shifted out.
    have hnone : (e - k - max (((m * 2 ^ k).log2 : Int) + (e - k) - 52) (-1074)).toNat = 0 := by
      rw [log2_mul_two_pow h.pos, hlog]
      omega
    simpa only [hnone, Nat.shiftLeft_zero, Nat.cast_zero, sub_zero] using h.roundWithAccuracy_eq k
  · -- There are too few digits, and zeros are put behind them first.
    have hpos : 0 < mantissa := Nat.pos_of_mul_pos_right h.pos
    have hamount : (e + k - max ((mantissa.log2 : Int) + (e + k) - 52) (-1074)).toNat = k := by
      rw [log2_mul_two_pow hpos] at hlog
      omega
    have hdirect := h.roundWithAccuracy_eq 0
    rw [pow_zero, Nat.mul_one, Nat.cast_zero, sub_zero] at hdirect
    simpa only [hamount, Nat.shiftLeft_eq, add_sub_cancel_right] using hdirect

end Kept

/-- What is exact is not rounded. -/
theorem normalize_exact {n : Nat} (hn : Exact n) {mantissa exponent : Int}
    (hvalue : (mantissa : ℚ) * (2 : ℚ) ^ exponent = n) :
    Denotes (.ofModel (.pack (UnpackedFloat.normalize .binary64 mantissa exponent .positive))) n := by
  have hscale : (0 : ℚ) < (2 : ℚ) ^ exponent := zpow_pos two_pos _
  rcases Nat.eq_zero_or_pos n with rfl | hpos
  · have hzero : mantissa = 0 := by simpa [hscale.ne'] using hvalue
    rw [hzero]
    exact denotes_zero
  · obtain ⟨m, e, hkept⟩ := exists_kept hn hpos
    have hmantissa : 0 < mantissa := by
      have : (0 : ℚ) < mantissa * (2 : ℚ) ^ exponent := by rw [hvalue]; exact_mod_cast hpos
      exact_mod_cast pos_of_mul_pos_left this hscale.le
    lift mantissa to Nat using hmantissa.le
    have hcompare : compare (mantissa : Int) 0 = .gt := Int.compare_eq_gt.2 hmantissa
    rw [UnpackedFloat.normalize, hcompare, Int.toNat_natCast, hkept.round_eq hvalue]
    exact denotes_pack hkept

/-! ## Arithmetic -/

variable {x y : Float} {a b : Nat}

theorem decreaseExponent_value (m : Nat) {e target : Int} (h : target ≤ e) :
    ((decreaseExponent m e target).1 : ℚ) * (2 : ℚ) ^ target = m * (2 : ℚ) ^ e := by
  obtain ⟨k, rfl⟩ := Int.le.dest h
  rw [decreaseExponent, ← shift_value, Nat.shiftLeft_eq]
  simp

/-- Sums are exact as long as they can be held. -/
theorem Denotes.add (hx : Denotes x a) (hy : Denotes y b) (h : Exact (a + b)) :
    Denotes (x + y) (a + b) := by
  change Denotes (.ofModel (.pack (UnpackedFloat.add .binary64 x.toModel.unpack y.toModel.unpack))) _
  rcases hx.cases with ⟨rfl, hleft⟩ | ⟨m, e, hm, hleft, hkept⟩ <;>
    rcases hy.cases with ⟨rfl, hright⟩ | ⟨m', e', hm', hright, hkept'⟩ <;> rw [hleft, hright]
  · exact denotes_zero
  · rw [Nat.zero_add]
    exact denotes_pack hkept'
  · exact denotes_pack hkept
  · -- Both are written with the smaller exponent, where the digits are added as they are.
    change Denotes (.ofModel (.pack (UnpackedFloat.normalize .binary64
      ((decreaseExponent m e (min e e')).1 + (decreaseExponent m' e' (min e e')).1) (min e e')
      .positive))) _
    refine normalize_exact h ?_
    have hvalue := decreaseExponent_value m (min_le_left e e')
    have hvalue' := decreaseExponent_value m' (min_le_right e e')
    push_cast
    rw [add_mul, hvalue, hvalue', ← hkept.value, ← hkept'.value]

/-- So are differences. -/
theorem Denotes.sub (hx : Denotes x (a + b)) (hy : Denotes y b) (h : Exact a) :
    Denotes (x - y) a := by
  change Denotes (.ofModel (.pack (UnpackedFloat.sub .binary64 x.toModel.unpack y.toModel.unpack))) _
  rcases hx.cases with ⟨hzero, hleft⟩ | ⟨m, e, hm, hleft, hkept⟩ <;>
    rcases hy.cases with ⟨rfl, hright⟩ | ⟨m', e', hm', hright, hkept'⟩ <;> rw [hleft, hright]
  · obtain rfl : a = 0 := hzero
    exact denotes_zero
  · -- Zero is not the sum of a positive number and another one.
    have := hkept'.pos_value
    omega
  · exact denotes_pack hkept
  · change Denotes (.ofModel (.pack (UnpackedFloat.normalize .binary64
      ((decreaseExponent m e (min e e')).1 - (decreaseExponent m' e' (min e e')).1) (min e e')
      .positive))) _
    refine normalize_exact h ?_
    have hvalue := decreaseExponent_value m (min_le_left e e')
    have hvalue' := decreaseExponent_value m' (min_le_right e e')
    push_cast
    rw [sub_mul, hvalue, hvalue', ← hkept.value, ← hkept'.value]
    push_cast
    ring

theorem Denotes.mul_one (hx : Denotes x a) : Denotes (x * 1) a := by
  have hone : (1 : Float).toModel.unpack = .finite .positive (2 ^ 52) (-52) (by decide) := rfl
  change Denotes (.ofModel (.pack (UnpackedFloat.mul .binary64 x.toModel.unpack
    (1 : Float).toModel.unpack))) _
  rw [hone]
  rcases hx.cases with ⟨rfl, hleft⟩ | ⟨m, e, hm, hleft, hkept⟩ <;> rw [hleft]
  · exact denotes_zero
  · change Denotes (.ofModel (.pack (roundWithAccuracy .binary64 .positive (m * 2 ^ 52)
      (e - (52 : Nat)) .exact))) _
    rw [hkept.roundWithAccuracy_eq 52]
    exact denotes_pack hkept

/-- Of two numbers that are kept with all digits, the exponents decide first. -/
theorem Kept.lt_of_exponent {m m' : Nat} {e e' : Int} (h : Kept a m e) (h' : Kept b m' e')
    (hlt : e < e') : a < b := by
  obtain ⟨k, rfl⟩ := Int.le.dest (Int.add_one_le_of_lt hlt)
  have hsmall := h.small
  have hlarge := h'.large
  -- All digits are used in both, so the digits of the one are less than twice those of the other.
  have hmantissa : m < m' * 2 ^ (1 + k) := by
    have := Nat.one_le_two_pow (n := k)
    rw [pow_add]
    nlinarith
  have hvalue : (b : ℚ) = ((m' * 2 ^ (1 + k) : Nat) : ℚ) * (2 : ℚ) ^ e := by
    rw [shift_value, h'.value]
    push_cast
    ring_nf
  have hless : (a : ℚ) < b := by
    rw [h.value, hvalue]
    exact mul_lt_mul_of_pos_right (by exact_mod_cast hmantissa) (zpow_pos two_pos _)
  exact_mod_cast hless

/-- Exponents are compared first, and then mantissas. -/
theorem Kept.lt_iff {m m' : Nat} {e e' : Int} (h : Kept a m e) (h' : Kept b m' e') :
    a < b ↔ e < e' ∨ e = e' ∧ m < m' := by
  rcases lt_trichotomy e e' with hlt | rfl | hgt
  · simp [hlt, h.lt_of_exponent h' hlt]
  · have hscale : (0 : ℚ) < (2 : ℚ) ^ e := zpow_pos two_pos _
    have : (a : ℚ) < b ↔ (m : ℚ) < m' := by
      rw [h.value, h'.value, mul_lt_mul_iff_left₀ hscale]
    simp only [lt_irrefl, false_or, true_and]
    exact_mod_cast this
  · simp [hgt.not_gt, hgt.ne', (h'.lt_of_exponent h hgt).le]

/-- Numbers that are held are compared as natural numbers are. -/
theorem Denotes.lt_iff (hx : Denotes x a) (hy : Denotes y b) : x < y ↔ a < b := by
  rw [lt_iff_compare]
  rcases hx.cases with ⟨rfl, hleft⟩ | ⟨m, e, hm, hleft, hkept⟩ <;>
    rcases hy.cases with ⟨rfl, hright⟩ | ⟨m', e', hm', hright, hkept'⟩ <;> rw [hleft, hright]
  · simp [UnpackedFloat.compare]
  · simp [UnpackedFloat.compare, hkept'.pos_value]
  · simp [UnpackedFloat.compare]
  · rw [hkept.lt_iff hkept']
    simp [UnpackedFloat.compare, Ordering.then_eq_lt, Int.compare_eq_lt, Nat.compare_eq_lt]

end GraphScript

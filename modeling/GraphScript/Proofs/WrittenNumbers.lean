import GraphScript.Json.Printer
import GraphScript.Json.Token
import Mathlib.Data.List.DropRight

/-!
# WrittenNumbers — numbers as they are written can be read

A number is written as digits, a point with more digits, and an exponent.  Whatever the number is,
its text follows the notation of JSON, so reading it never fails half-way.

- `Whole`, `Fraction` and `Exponent` — the parts of the notation;
- `Written` — texts that are numbers in the notation, and `Written.parse?`, by which they are read;
- `written_floatText`, `written_float32Text` — finite numbers of both widths are written so.

Which number the digits stand for is not looked at here.
-/

namespace GraphScript

/-! ## Digits -/

/-- Characters of one kind are taken off where no further one follows. -/
theorem takeWhile_dropWhile_append {kind : Char → Bool} {word rest : List Char}
    (hword : ∀ c ∈ word, kind c = true) (hrest : ∀ c ∈ rest.head?, kind c = false) :
    ((word ++ rest).takeWhile kind, (word ++ rest).dropWhile kind) = (word, rest) := by
  have hstop : rest.takeWhile kind = [] ∧ rest.dropWhile kind = rest := by
    cases rest with
    | nil => exact ⟨rfl, rfl⟩
    | cons c rest =>
      have hc : kind c = false := hrest c rfl
      simp [hc]
  rw [List.takeWhile_append_of_pos hword, List.dropWhile_append_of_pos hword, hstop.1, hstop.2,
    List.append_nil]

structure Digits (cs : List Char) : Prop where
  digits : ∀ c ∈ cs, c.isDigit = true
  nonempty : cs ≠ []

namespace Digits

variable {cs ds rest : List Char}

theorem append (hcs : ∀ c ∈ cs, c.isDigit = true) (hds : Digits ds) : Digits (cs ++ ds) := by
  refine ⟨?_, List.append_ne_nil_of_right_ne_nil cs hds.nonempty⟩
  intro c hc
  rcases List.mem_append.1 hc with hc | hc
  · exact hcs c hc
  · exact hds.digits c hc

/-- Digits are taken off where none follows. -/
theorem spanDigits_append (hcs : ∀ c ∈ cs, c.isDigit = true)
    (hrest : ∀ c ∈ rest.head?, c.isDigit = false) : spanDigits (cs ++ rest) = (cs, rest) :=
  takeWhile_dropWhile_append hcs hrest

theorem toDigits (n : Nat) : Digits (Nat.toDigits 10 n) :=
  ⟨fun _ hc => Nat.isDigit_of_mem_toDigits (by omega) (by omega) hc, Nat.toDigits_ne_nil⟩

end Digits

theorem head?_toDigits {n : Nat} (hn : n ≠ 0) : (Nat.toDigits 10 n).head? ≠ some '0' := by
  induction n using Nat.strongRecOn with
  | ind n ih =>
    by_cases hsmall : n < 10
    · rw [Nat.toDigits_of_lt_base hsmall]
      have hall : ∀ m < 10, m ≠ 0 → [Nat.digitChar m].head? ≠ some '0' := by decide
      exact hall n hsmall hn
    · rw [Nat.toDigits_of_base_le (by omega) (by omega), List.head?_append_of_ne_nil _
        Nat.toDigits_ne_nil]
      exact ih (n / 10) (by omega) (by omega)

namespace Json

/-! ## The notation of numbers -/

/-- Digits in front of the point; a zero comes first only if it stands alone. -/
structure Whole (cs : List Char) : Prop extends Digits cs where
  plain : cs.head? = some '0' → cs.length = 1

inductive Fraction : List Char → Prop
  | absent : Fraction []
  | present {ds : List Char} (hds : Digits ds) : Fraction ('.' :: ds)

inductive Exponent : List Char → Prop
  | absent : Exponent []
  | present {sign ds : List Char} (hsign : sign = [] ∨ sign = ['+'] ∨ sign = ['-']) (hds : Digits ds) :
      Exponent ('e' :: (sign ++ ds))

inductive Unsigned : List Char → Prop
  | mk {whole fraction exponent : List Char} (hwhole : Whole whole) (hfraction : Fraction fraction)
      (hexponent : Exponent exponent) : Unsigned (whole ++ (fraction ++ exponent))

inductive Positional : List Char → Prop
  | mk {whole fraction : List Char} (hwhole : Whole whole) (hfraction : Digits fraction) :
      Positional (whole ++ '.' :: fraction)

theorem Positional.unsigned {cs : List Char} (h : Positional cs) : Unsigned cs := by
  rcases h with ⟨hwhole, hfraction⟩
  simpa using Unsigned.mk hwhole (.present hfraction) .absent

inductive Written : List Char → Prop
  | plain {cs : List Char} (h : Unsigned cs) : Written cs
  | negative {cs : List Char} (h : Unsigned cs) : Written ('-' :: cs)

theorem isWordChar_of_isDigit {c : Char} (h : c.isDigit = true) : isWordChar c = true := by
  simp [isWordChar, Char.isAlphanum, h]

theorem Fraction.isWordChar {cs : List Char} (h : Fraction cs) :
    ∀ c ∈ cs, isWordChar c = true := by
  cases h with
  | absent => simp
  | present hds =>
    rw [List.forall_mem_cons]
    exact ⟨rfl, fun c hc => isWordChar_of_isDigit (hds.digits c hc)⟩

theorem Exponent.isWordChar {cs : List Char} (h : Exponent cs) :
    ∀ c ∈ cs, isWordChar c = true := by
  cases h with
  | absent => simp
  | present hsign hds =>
    rw [List.forall_mem_cons, List.forall_mem_append]
    refine ⟨rfl, ?_, fun c hc => isWordChar_of_isDigit (hds.digits c hc)⟩
    rcases hsign with rfl | rfl | rfl
    · exact List.all_eq_true.1 rfl
    · exact List.all_eq_true.1 rfl
    · exact List.all_eq_true.1 rfl

theorem Unsigned.isWordChar {cs : List Char} (h : Unsigned cs) :
    ∀ c ∈ cs, isWordChar c = true := by
  rcases h with ⟨hwhole, hfraction, hexponent⟩
  rw [List.forall_mem_append, List.forall_mem_append]
  exact ⟨fun c hc => isWordChar_of_isDigit (hwhole.digits c hc), hfraction.isWordChar,
    hexponent.isWordChar⟩

/-- A number is one word. -/
theorem Written.isWordChar {cs : List Char} (h : Written cs) : ∀ c ∈ cs, isWordChar c = true := by
  cases h with
  | plain h => exact h.isWordChar
  | negative h =>
    rw [List.forall_mem_cons]
    exact ⟨rfl, h.isWordChar⟩

/-! ## Reading the notation -/

/-- No digit follows where a fraction or an exponent may follow. -/
theorem isDigit_head_fraction {fraction exponent : List Char} (hfraction : Fraction fraction)
    (hexponent : Exponent exponent) :
    ∀ c ∈ (fraction ++ exponent).head?, c.isDigit = false := by
  cases hfraction with
  | absent =>
    cases hexponent with
    | absent => simp
    | present hsign hds => simp
  | present hds => simp

theorem ne_sign_of_isDigit {c : Char} (h : c.isDigit = true) : c ≠ '+' ∧ c ≠ '-' := by
  constructor
  · rintro rfl
    cases h
  · rintro rfl
    cases h

theorem splitSign_append {sign ds : List Char} (hsign : sign = [] ∨ sign = ['+'] ∨ sign = ['-'])
    (hds : Digits ds) : ∃ b, Numeral.splitSign (sign ++ ds) = (b, ds) := by
  rcases hsign with rfl | rfl | rfl
  · cases ds with
    | nil => exact absurd rfl hds.nonempty
    | cons d ds =>
      have hne := ne_sign_of_isDigit (hds.digits d List.mem_cons_self)
      refine ⟨false, ?_⟩
      simp [Numeral.splitSign, hne.1, hne.2]
  · exact ⟨false, rfl⟩
  · exact ⟨true, rfl⟩

/-- An exponent is read to its end. -/
theorem Exponent.read {cs : List Char} (h : Exponent cs) :
    ∃ e, Literal.exponent? cs = some (e, []) := by
  cases h with
  | absent => exact ⟨none, rfl⟩
  | @present sign ds hsign hds =>
    have hspan : spanDigits ds = (ds, []) := by
      have hempty : spanDigits (ds ++ []) = (ds, []) :=
        Digits.spanDigits_append hds.digits (by simp)
      rwa [List.append_nil] at hempty
    rcases splitSign_append hsign hds with ⟨b, hsplit⟩
    refine ⟨some (if b then -(digitsValue ds : Int) else digitsValue ds), ?_⟩
    simp [Literal.exponent?, hsplit, hspan, hds.nonempty]

theorem Fraction.read {fraction exponent : List Char} (h : Fraction fraction)
    (hexponent : Exponent exponent) :
    ∃ ds, Literal.fraction? (fraction ++ exponent) = some (ds, exponent) := by
  cases h with
  | absent =>
    cases hexponent with
    | absent => exact ⟨[], rfl⟩
    | present hsign hds => exact ⟨[], rfl⟩
  | @present ds hds =>
    have hspan : spanDigits (ds ++ exponent) = (ds, exponent) :=
      Digits.spanDigits_append hds.digits (isDigit_head_fraction .absent hexponent)
    refine ⟨ds, ?_⟩
    simp [Literal.fraction?, hspan, hds.nonempty]

/-- The three parts of a number without sign are read one after the other. -/
theorem Unsigned.read {cs : List Char} (h : Unsigned cs) :
    ∃ whole rest fraction tail exponent, spanDigits cs = (whole, rest) ∧
      (whole ≠ [] ∧ (whole.head? = some '0' → whole.length ≤ 1)) ∧
      Literal.fraction? rest = some (fraction, tail) ∧
      Literal.exponent? tail = some (exponent, []) := by
  rcases h with ⟨hwhole, hfraction, hexponent⟩
  have hspan := Digits.spanDigits_append hwhole.digits (isDigit_head_fraction hfraction hexponent)
  rcases hfraction.read hexponent with ⟨fraction, hread⟩
  rcases hexponent.read with ⟨exponent, hend⟩
  exact ⟨_, _, fraction, _, exponent, hspan,
    ⟨hwhole.nonempty, fun hzero => Nat.le_of_eq (hwhole.plain hzero)⟩, hread, hend⟩

theorem Unsigned.exists_cons {cs : List Char} (h : Unsigned cs) :
    ∃ c rest, cs = c :: rest ∧ c.isDigit = true := by
  rcases h with ⟨hwhole, hfraction, hexponent⟩
  rcases List.exists_cons_of_ne_nil hwhole.nonempty with ⟨c, rest, rfl⟩
  exact ⟨c, _, rfl, hwhole.digits c List.mem_cons_self⟩

theorem Written.exists_cons {cs : List Char} (h : Written cs) :
    ∃ c rest, cs = c :: rest ∧ (c = '-' ∨ c.isDigit = true) := by
  cases h with
  | plain h =>
    rcases h.exists_cons with ⟨c, rest, rfl, hc⟩
    exact ⟨c, rest, rfl, Or.inr hc⟩
  | negative h => exact ⟨'-', _, rfl, Or.inl rfl⟩

/-- A number is read to its end. -/
theorem Written.parse? {cs : List Char} (h : Written cs) :
    ∃ l, Literal.parse? cs = some (l, []) := by
  cases h with
  | plain h =>
    rcases h.read with ⟨whole, rest, fraction, tail, exponent, hspan, hwhole, hfraction, hexponent⟩
    rcases h.exists_cons with ⟨c, more, rfl, hc⟩
    refine ⟨⟨false, whole, fraction, exponent⟩, ?_⟩
    have hsign := (ne_sign_of_isDigit hc).2
    simpa [Literal.parse?, hsign, hspan, hfraction, hexponent] using hwhole
  | negative h =>
    rcases h.read with ⟨whole, rest, fraction, tail, exponent, hspan, hwhole, hfraction, hexponent⟩
    refine ⟨⟨true, whole, fraction, exponent⟩, ?_⟩
    simpa [Literal.parse?, hspan, hfraction, hexponent] using hwhole

/-! ## Texts of decimals -/

/-- Digits that do not begin with a zero. -/
structure Leading (ds : List Char) : Prop extends Digits ds where
  head : ds.head? ≠ some '0'

theorem Leading.whole {ds : List Char} (h : Leading ds) : Whole ds :=
  ⟨h.toDigits, fun hzero => absurd hzero h.head⟩

theorem digits_zero : Digits ['0'] := ⟨List.all_eq_true.1 rfl, List.cons_ne_nil _ _⟩

theorem digits_zeros (n : Nat) : ∀ c ∈ (Layout.zeros n).toList, c.isDigit = true := by
  intro c hc
  rw [Layout.zeros, String.toList_ofList] at hc
  rw [List.eq_of_mem_replicate hc]
  rfl

/-- Digits of a positive number, without the zeros behind them. -/
theorem leading_stripZeros {n : Nat} (hn : n ≠ 0) :
    Leading (Layout.stripZeros (toString n).toList).1 := by
  have hdigits := Digits.toDigits n
  have hhead := head?_toDigits hn
  rw [Nat.toString_eq_repr, Nat.toList_repr]
  generalize Nat.toDigits 10 n = ds at hdigits hhead
  have hfront : ds.rdropWhile (· == '0') <+: ds := List.rdropWhile_prefix _ _
  -- The first digit is no zero, so not everything is dropped.
  have hkept : ds.rdropWhile (· == '0') ≠ [] := by
    intro hnil
    rcases List.exists_cons_of_ne_nil hdigits.nonempty with ⟨d, more, rfl⟩
    have hzero := List.rdropWhile_eq_nil_iff.1 hnil d List.mem_cons_self
    exact hhead (by simpa using hzero)
  refine ⟨⟨fun c hc => hdigits.digits c (hfront.subset hc), hkept⟩, ?_⟩
  rcases hfront with ⟨dropped, hds⟩
  rw [← hds, List.head?_append_of_ne_nil _ hkept] at hhead
  exact hhead

theorem positional_positionalText {ds : List Char} (h : Leading ds) (point : Int) :
    Positional (Layout.positionalText true ds point).toList := by
  unfold Layout.positionalText
  split
  · -- A zero, the point, further zeros and the digits.
    have hfraction : Digits ((Layout.zeros (-point).toNat).toList ++ ds) :=
      Digits.append (digits_zeros _) h.toDigits
    have hwhole : Whole ['0'] := ⟨digits_zero, fun _ => rfl⟩
    simpa [String.toList_append] using Positional.mk hwhole hfraction
  · split
    · -- The digits, further zeros, the point and a zero.
      have hwhole : Whole (ds ++ (Layout.zeros (point.toNat - ds.length)).toList) := by
        refine ⟨⟨?_, List.append_ne_nil_of_left_ne_nil h.nonempty _⟩, ?_⟩
        · exact List.forall_mem_append.2 ⟨h.digits, digits_zeros _⟩
        · rw [List.head?_append_of_ne_nil _ h.nonempty]
          exact fun hzero => absurd hzero h.head
      simpa [String.toList_append] using Positional.mk hwhole digits_zero
    · -- The point stands among the digits.
      rename_i hpositive hinside
      have hsplit : ds.take point.toNat ++ ds.drop point.toNat = ds := List.take_append_drop _ _
      have hwhole : Leading (ds.take point.toNat) := by
        have hnonempty : ds.take point.toNat ≠ [] := by
          intro hnil
          rcases List.take_eq_nil_iff.1 hnil with hzero | hnil
          · omega
          · exact h.nonempty hnil
        refine ⟨⟨fun c hc => h.digits c (List.mem_of_mem_take hc), hnonempty⟩, ?_⟩
        have hhead := h.head
        rw [← hsplit, List.head?_append_of_ne_nil _ hnonempty] at hhead
        exact hhead
      have hfraction : Digits (ds.drop point.toNat) := by
        refine ⟨fun c hc => h.digits c (List.mem_of_mem_drop hc), ?_⟩
        rw [ne_eq, List.drop_eq_nil_iff]
        omega
      simpa [String.toList_append] using Positional.mk hwhole.whole hfraction

theorem unsigned_exponentText {ds : List Char} (h : Leading ds) (exponent : Int) :
    Unsigned (Layout.exponentText true ds exponent).toList := by
  rcases List.exists_cons_of_ne_nil h.nonempty with ⟨d, more, rfl⟩
  have hwhole : Whole [d] := by
    refine ⟨⟨?_, List.cons_ne_nil _ _⟩, fun _ => rfl⟩
    rw [List.forall_mem_singleton]
    exact h.digits d List.mem_cons_self
  have hfraction : Fraction (if more.isEmpty then "" else "." ++ String.ofList more).toList := by
    cases more with
    | nil => exact .absent
    | cons c more =>
      have hdigits : Digits (c :: more) :=
        ⟨fun x hx => h.digits x (List.mem_cons_of_mem _ hx), List.cons_ne_nil _ _⟩
      simpa [String.toList_append] using Fraction.present hdigits
  have hexponent : Exponent ('e' :: ((if exponent < 0 then "-" else "+").toList ++
      (toString exponent.natAbs).toList)) := by
    refine .present ?_ ?_
    · split
      · exact Or.inr (Or.inr rfl)
      · exact Or.inr (Or.inl rfl)
    · rw [Nat.toString_eq_repr, Nat.toList_repr]
      exact Digits.toDigits _
  have hall := Unsigned.mk hwhole hfraction hexponent
  simpa [Layout.exponentText, String.toList_append] using hall

theorem positional_zero : Positional "0.0".toList := by
  have hwhole : Whole ['0'] := ⟨digits_zero, fun _ => rfl⟩
  exact .mk hwhole digits_zero

/-- Without exponents, decimals are digits, a point and digits. -/
theorem positional_decimalText {l : Layout} (hpoint : l.pointZero = true)
    (hall : l.positional = none) (d : Decimal) : Positional (l.decimalText d).toList := by
  unfold Layout.decimalText
  split
  · exact positional_zero
  · rename_i hdigits
    have hleading := leading_stripZeros hdigits
    generalize Layout.stripZeros (toString d.digits).toList = strip at hleading
    rcases strip with ⟨ds, dropped⟩
    simp only [hpoint, hall]
    exact positional_positionalText hleading _

theorem unsigned_decimalText {l : Layout} (hpoint : l.pointZero = true) (hsign : l.plusSign = true)
    (d : Decimal) : Unsigned (l.decimalText d).toList := by
  unfold Layout.decimalText
  split
  · exact positional_zero.unsigned
  · rename_i hdigits
    have hleading := leading_stripZeros hdigits
    generalize Layout.stripZeros (toString d.digits).toList = strip at hleading
    rcases strip with ⟨ds, dropped⟩
    simp only [hpoint, hsign]
    generalize (ds.length + dropped + d.exponent : Int) = point
    split
    · split
      · exact (positional_positionalText hleading _).unsigned
      · exact unsigned_exponentText hleading _
    · split
      · exact (positional_positionalText hleading _).unsigned
      · exact unsigned_exponentText hleading _

/-! ## Texts of numbers -/

theorem written_takenText {l : Layout} (hpoint : l.pointZero = true) (hsign : l.plusSign = true)
    {t : Taken} {d : Decimal} (h : t.magnitude = .finite d) : Written (l.takenText t).toList := by
  have hdecimal := unsigned_decimalText hpoint hsign d
  rw [Layout.takenText, h]
  cases t.negative with
  | false => exact .plain hdecimal
  | true => simpa [String.toList_append] using Written.negative hdecimal

open Float.Model in
/-- What is finite is taken apart into a sign and a decimal. -/
theorem magnitude_ofUnpacked {tie : Tie} {reads : Decimal → Bool} {u : UnpackedFloat}
    (h : u.isFinite = true) : ∃ d, (Taken.ofUnpacked tie reads u).magnitude = .finite d := by
  cases u with
  | notANumber => cases h
  | infinity sign => cases h
  | zero sign => exact ⟨_, rfl⟩
  | finite sign mantissa exponent hmantissa => exact ⟨_, rfl⟩

/-- The text of a finite 64-bit number is a number. -/
theorem written_floatText {x : Float} (h : x.isFinite = true) :
    Written (wide.floatText x).toList := by
  rcases magnitude_ofUnpacked h with ⟨d, hd⟩
  exact written_takenText rfl rfl hd

/-- So is that of a 32-bit number. -/
theorem written_float32Text {x : Float32} (h : x.isFinite = true) :
    Written (narrow.float32Text x).toList := by
  rcases magnitude_ofUnpacked h with ⟨d, hd⟩
  exact written_takenText rfl rfl hd

theorem written_natural (n : Nat) : Written (toString n).toList := by
  have hdigits := Digits.toDigits n
  have hwhole : Whole (Nat.toDigits 10 n) := by
    refine ⟨hdigits, ?_⟩
    by_cases hn : n = 0
    · subst hn
      exact fun _ => rfl
    · exact fun hzero => absurd hzero (head?_toDigits hn)
  have hall := Unsigned.mk hwhole .absent .absent
  rw [Nat.toString_eq_repr, Nat.toList_repr]
  exact .plain (by simpa using hall)

end Json

end GraphScript

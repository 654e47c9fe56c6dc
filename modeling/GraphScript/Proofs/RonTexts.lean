import GraphScript.Proofs.WrittenNumbers
import GraphScript.Ron.Any
import GraphScript.Ron.Printer
import Mathlib.Data.Nat.Digits.Defs

/-!
# RonTexts — what is printed in RON is found again

Each part of a text is taken off the front of whatever follows it, exactly as it was printed.

- `skipGap_line` — lines begin with a gap;
- `text?_quote` — a quoted text, whatever characters it has;
- `wholeName?_append` — the name of a field;
- `real?_append`, `anyNumber?_append` — a number with a point, which no width follows.
-/

namespace GraphScript.Ron

/-! ## Fronts of texts -/

/-- What follows an item of a container, or a whole text. -/
def Ends (rest : List Char) : Prop := ∀ c ∈ rest.head?, c = ','

/-- What follows an item is not of a kind that commas are not of. -/
theorem Ends.stops {rest : List Char} (h : Ends rest) {kind : Char → Bool}
    (hkind : kind ',' = false) : ∀ c ∈ rest.head?, kind c = false := by
  intro c hc
  rw [h c hc]
  exact hkind

/-- Characters of one kind are taken off where no further one follows. -/
theorem spanChars_append {kind : Char → Bool} {word rest : List Char}
    (hword : ∀ c ∈ word, kind c = true) (hrest : ∀ c ∈ rest.head?, kind c = false) :
    spanChars kind (word ++ rest) = (word, rest) := takeWhile_dropWhile_append hword hrest

/-- The words that stand for something by themselves. -/
def keywords : List String :=
  ["true", "false", "None", "Some", "inf", "inff32", "inff64", "NaN", "NaNf32", "NaNf64"]

/-- A text that does not begin with a letter begins with no word. -/
theorem takeWhile_ne_word {kind : Char → Bool} {cs : List Char}
    (hhead : ∀ c ∈ cs.head?, c.isAlpha = false) {word : String} (hword : word ∈ keywords) :
    String.ofList (cs.takeWhile kind) ≠ word := by
  have hletter : ∀ word ∈ keywords, word.toList.head?.any Char.isAlpha = true := by decide
  rcases (Option.any_eq_true _ _).1 (hletter word hword) with ⟨c, hc, halpha⟩
  rintro rfl
  rw [String.toList_ofList] at hc
  -- The first character that was taken is the first one of the text.
  have hfront : cs.head? = some c := by
    cases cs with
    | nil => cases hc
    | cons d cs =>
      by_cases hd : kind d = true
      · simpa [hd] using hc
      · simp [hd] at hc
  have hnone := hhead c hfront
  rw [halpha] at hnone
  cases hnone

/-- So it begins with none of some names that are words. -/
theorem contains_takeWhile {kind : Char → Bool} {cs : List Char}
    (hhead : ∀ c ∈ cs.head?, c.isAlpha = false) {names : List String}
    (hnames : ∀ name ∈ names, name ∈ keywords) :
    names.contains (String.ofList (cs.takeWhile kind)) = false := by
  rw [Bool.eq_false_iff]
  intro h
  exact takeWhile_ne_word hhead (hnames _ (List.contains_iff_mem.1 h)) rfl

theorem isDigit_iff {c : Char} : c.isDigit = true ↔ 48 ≤ c.toNat ∧ c.toNat ≤ 57 := by
  change (decide (48 ≤ c.val) && decide (c.val ≤ 57)) = true ↔ _
  simp [UInt32.le_iff_toNat_le]

theorem isUpper_iff {c : Char} : c.isUpper = true ↔ 65 ≤ c.toNat ∧ c.toNat ≤ 90 := by
  change decide (65 ≤ c.val ∧ c.val ≤ 90) = true ↔ _
  simp [UInt32.le_iff_toNat_le]

theorem isLower_iff {c : Char} : c.isLower = true ↔ 97 ≤ c.toNat ∧ c.toNat ≤ 122 := by
  change (decide (97 ≤ c.val) && decide (c.val ≤ 122)) = true ↔ _
  simp [UInt32.le_iff_toNat_le]

theorem isAlpha_iff {c : Char} : c.isAlpha = true ↔ c.isUpper = true ∨ c.isLower = true :=
  Bool.or_eq_true_iff

/-- What holds of the characters with the codes up to a bound holds of each of them. -/
theorem of_code {P : Char → Bool} {low high : Nat}
    (hall : ∀ n < high + 1, low ≤ n → P (Char.ofNat n) = true) {c : Char}
    (hcode : low ≤ c.toNat ∧ c.toNat ≤ high) : P c = true := by
  have hc := hall c.toNat (Nat.lt_succ_of_le hcode.2) hcode.1
  rwa [Char.ofNat_toNat] at hc

theorem isAlpha_of_isDigit {c : Char} (h : c.isDigit = true) : c.isAlpha = false := by
  rw [isDigit_iff] at h
  rw [Bool.eq_false_iff, Ne, isAlpha_iff, isUpper_iff, isLower_iff]
  omega

theorem toLower_of_isDigit {c : Char} (h : c.isDigit = true) : c.toLower = c := by
  have hsame := of_code (P := fun c => c.toLower = c) (by decide) (isDigit_iff.1 h)
  exact of_decide_eq_true hsame

/-! ## Gaps -/

/-- No gap begins here. -/
def Solid (cs : List Char) : Prop := ∀ c ∈ cs.head?, isSpace c = false ∧ c ≠ '/'

theorem Solid.cons {c : Char} (hspace : isSpace c = false) (hslash : c ≠ '/') (cs : List Char) :
    Solid (c :: cs) := by
  intro c' hc'
  cases hc'
  exact ⟨hspace, hslash⟩

/-- A gap is skipped up to where none begins. -/
theorem skipGap_append {blanks cs : List Char} (hblanks : ∀ c ∈ blanks, c = ' ' ∨ c = '\n')
    (hcs : Solid cs) : skipGap (blanks ++ cs) = some cs := by
  induction blanks with
  | nil =>
    cases cs with
    | nil => rfl
    | cons c cs =>
      rcases hcs c rfl with ⟨hspace, hslash⟩
      simp [skipGap, Gap.skip, hspace, hslash]
  | cons c blanks ih =>
    rw [List.forall_mem_cons] at hblanks
    have hstep : ∀ rest, skipGap (c :: rest) = skipGap rest := by
      rcases hblanks.1 with rfl | rfl
      · exact fun _ => rfl
      · exact fun _ => rfl
    rw [List.cons_append, hstep]
    exact ih hblanks.2

theorem skipGap_solid {cs : List Char} (hcs : Solid cs) : skipGap cs = some cs := by
  have hnone : ∀ c ∈ ([] : List Char), c = ' ' ∨ c = '\n' := fun _ hc => nomatch hc
  exact skipGap_append hnone hcs

/-- So is the front of a line. -/
theorem skipGap_line (level : Nat) {cs : List Char} (hcs : Solid cs) :
    skipGap ((line level).toList ++ cs) = some cs := by
  have hline : (line level).toList = '\n' :: List.replicate (4 * level) ' ' := by
    simp [line, String.toList_append, String.toList_ofList]
  refine skipGap_append ?_ hcs
  rw [hline, List.forall_mem_cons]
  exact ⟨Or.inr rfl, fun c hc => Or.inl (List.eq_of_mem_replicate hc)⟩

/-! ## Quoted texts -/

theorem digits?_append (base value : Nat) (cs : List Char) (c : Char) :
    digits? base value (cs ++ [c]) =
      (digits? base value cs).bind fun n => digits? base n [c] := by
  induction cs generalizing value with
  | nil => rfl
  | cons d cs ih =>
    rw [List.cons_append, digits?, digits?]
    cases digit? d with
    | none => rfl
    | some n =>
      by_cases hn : n < base
      · simp only [hn, if_true]
        exact ih _
      · simp only [hn, if_false]
        rfl

/-- The hexadecimal digits of a number spell it. -/
theorem digits?_toDigits (n : Nat) : digits? 16 0 (Nat.toDigits 16 n) = some n := by
  have hdigit : ∀ value, ∀ d < 16, digits? 16 value [Nat.digitChar d] = some (16 * value + d) := by
    intro value d hd
    have hread : digit? (Nat.digitChar d) = some d := by
      have hall : ∀ d < 16, digit? (Nat.digitChar d) = some d := by decide
      exact hall d hd
    rw [digits?, hread]
    exact if_pos hd
  induction n using Nat.strongRecOn with
  | ind n ih =>
    by_cases hsmall : n < 16
    · rw [Nat.toDigits_of_lt_base hsmall, hdigit 0 n hsmall, Nat.mul_zero, Nat.zero_add]
    · -- The digits but the last one spell the quotient.
      rw [Nat.toDigits_of_base_le (by omega) (by omega), digits?_append, ih (n / 16) (by omega),
        Option.bind_some, hdigit _ _ (Nat.mod_lt _ (by omega)), Nat.div_add_mod]

theorem isSome_digit?_of_digits? {base value n : Nat} {cs : List Char}
    (h : digits? base value cs = some n) : ∀ c ∈ cs, (digit? c).isSome = true := by
  induction cs generalizing value with
  | nil => exact fun _ hc => nomatch hc
  | cons c cs ih =>
    rw [digits?] at h
    split at h
    · rename_i d hd
      split at h
      · exact List.forall_mem_cons.2 ⟨by rw [hd]; rfl, ih h⟩
      · cases h
    · cases h

/-- A code in braces stands for its character. -/
theorem code?_hex (c : Char) (rest : List Char) :
    code? ((Quoted.hex c.toNat).toList ++ '\x7d' :: rest) = some (c, rest) := by
  have hvalue := digits?_toDigits c.toNat
  have hlength : (Nat.toDigits 16 c.toNat).length ≤ 6 := by
    refine Nat.toDigits_length 16 c.toNat 6 (by omega) ?_
    have hvalid : c.toNat < 0x110000 := by
      rcases c.valid with h | h <;> simp only [Char.toNat] <;> omega
    omega
  have hne : Nat.toDigits 16 c.toNat ≠ [] := Nat.toDigits_ne_nil
  have hdigits := isSome_digit?_of_digits? hvalue
  rw [Quoted.hex, String.toList_ofList]
  generalize Nat.toDigits 16 c.toNat = ds at hvalue hlength hne hdigits
  -- The brace stands behind the digits, if it is among the first six characters at all.
  have htaken : ((ds ++ '\x7d' :: rest).take 6).takeWhile (· ≠ '\x7d') = ds := by
    have hdigit : ∀ d ∈ ds, decide (d ≠ '\x7d') = true := by
      intro d hd
      rw [decide_eq_true_eq]
      rintro rfl
      exact absurd (hdigits _ hd) (by decide)
    rw [List.take_append, List.take_of_length_le hlength, List.takeWhile_append_of_pos hdigit]
    cases 6 - ds.length with
    | zero => simp
    | succ k => simp
  have hcode : code? (ds ++ '\x7d' :: rest) =
      if c.toNat.isValidChar then some (Char.ofNat c.toNat, rest) else none := by
    unfold code?
    simp only [htaken, hvalue, List.drop_left]
    cases ds with
    | nil => exact absurd rfl hne
    | cons d ds => rfl
  have hvalid : c.toNat.isValidChar := c.valid
  rw [hcode, if_pos hvalid, Char.ofNat_toNat]

/-- How a character stands in a quoted text: as it is, or as what a backslash begins. -/
theorem escape_cases (c : Char) :
    ((Quoted.escape .both c).toList = [c] ∧ c ≠ '"' ∧ c ≠ '\\') ∨
      ∃ code, (Quoted.escape .both c).toList = '\\' :: code ∧
        ∀ rest, charEscape? (code ++ rest) = some (c, rest) := by
  unfold Quoted.escape
  split
  · exact Or.inr ⟨['0'], rfl, fun _ => rfl⟩
  · exact Or.inr ⟨['t'], rfl, fun _ => rfl⟩
  · exact Or.inr ⟨['r'], rfl, fun _ => rfl⟩
  · exact Or.inr ⟨['n'], rfl, fun _ => rfl⟩
  · exact Or.inr ⟨['"'], rfl, fun _ => rfl⟩
  · exact Or.inr ⟨['\\'], rfl, fun _ => rfl⟩
  · exact Or.inr ⟨['\x27'], rfl, fun _ => rfl⟩
  · rename_i hquote hbackslash _
    split
    · exact Or.inl ⟨by simp, hquote, hbackslash⟩
    · -- A character that shows nothing is written by its code.
      refine Or.inr ⟨'u' :: '\x7b' :: ((Quoted.hex c.toNat).toList ++ ['\x7d']), ?_, ?_⟩
      · simp [String.toList_append]
      · intro rest
        have hcode := code?_hex c rest
        simp [charEscape?, escape?, hcode]

/-- A quoted text is read character by character up to the quotation mark behind it. -/
theorem contentWithin?_escapes (cs rest : List Char) (fuel : Nat) (hfuel : cs.length < fuel) :
    contentWithin? id charEscape? fuel
        (cs.flatMap (fun c => (Quoted.escape .both c).toList) ++ '"' :: rest) =
      some (cs, rest) := by
  induction cs generalizing fuel with
  | nil =>
    cases fuel with
    | zero => omega
    | succ fuel => rfl
  | cons c cs ih =>
    cases fuel with
    | zero => omega
    | succ fuel =>
      -- One round takes one character, however many stand for it.
      have hmore := ih fuel (by simpa using hfuel)
      rw [List.flatMap_cons, List.append_assoc]
      rcases escape_cases c with ⟨hchars, hquote, hbackslash⟩ | ⟨code, hchars, hread⟩
      · rw [hchars, List.singleton_append, contentWithin?, if_neg hquote, if_neg hbackslash]
        simp [hmore]
      · rw [hchars, List.cons_append, contentWithin?, if_neg (by decide), if_pos rfl, hread]
        simp [hmore]

/-- A text is read from its quotation, whatever follows. -/
theorem text?_quote (s : String) (rest : List Char) :
    text? ((quote s).toList ++ rest) = some (s, rest) := by
  have hchars : (quote s).toList ++ rest =
      '"' :: (s.toList.flatMap (fun c => (Quoted.escape .both c).toList) ++ '"' :: rest) := by
    simp [quote, Quoted.quote, String.toList_append, String.toList_join, List.flatMap_map]
  -- Every character of the text has at least one character in the quotation.
  have hfuel : s.toList.length <
      (s.toList.flatMap (fun c => (Quoted.escape .both c).toList) ++ '"' :: rest).length := by
    have hescaped : ∀ cs : List Char,
        cs.length ≤ (cs.flatMap fun c => (Quoted.escape .both c).toList).length := by
      intro cs
      induction cs with
      | nil => exact Nat.le_refl 0
      | cons c cs ih =>
        have hpositive : 0 < (Quoted.escape .both c).toList.length := by
          rcases escape_cases c with ⟨h, -⟩ | ⟨code, h, -⟩ <;> simp [h]
        rw [List.flatMap_cons, List.length_append, List.length_cons]
        omega
    have hall := hescaped s.toList
    rw [List.length_append, List.length_cons]
    omega
  rw [hchars, text?, content?, contentWithin?_escapes _ _ _ hfuel]
  exact congrArg (fun read => some (read, rest)) String.ofList_toList

/-! ## Names -/

/-- Marked quotations begin with one of two letters. -/
theorem startsQuoted_cons {c : Char} (hb : c ≠ 'b') (hr : c ≠ 'r') (cs : List Char) :
    startsQuoted (c :: cs) = false := by
  unfold startsQuoted
  split <;> simp_all

/-- No name begins with a character that is neither a letter nor the head of an identifier. -/
theorem name?_eq_none {c : Char} (halpha : c.isAlpha = false) (hhead : isIdentifierHead c = false)
    (cs : List Char) : name? (c :: cs) = none := by
  have hb : c ≠ 'b' := by
    rintro rfl
    cases halpha
  have hr : c ≠ 'r' := by
    rintro rfl
    cases halpha
  unfold name?
  rw [startsQuoted_cons hb hr, if_neg Bool.false_ne_true]
  split
  · rename_i hcons
    cases hcons
    exact absurd rfl hr
  · rename_i hcons
    cases hcons
    rw [hhead, if_neg Bool.false_ne_true]
  · rfl

/-- Letters begin identifiers and go on with them. -/
theorem isIdentifier_of_isAlpha {c : Char} (h : c.isAlpha = true) :
    isIdentifierHead c = true ∧ isIdentifierTail c = true := by
  rw [isAlpha_iff, isUpper_iff, isLower_iff] at h
  rw [← Bool.and_eq_true]
  -- There are few enough letters to look at each of them.
  rcases h with h | h
  · exact of_code (P := fun c => isIdentifierHead c && isIdentifierTail c) (by decide +kernel) h
  · exact of_code (P := fun c => isIdentifierHead c && isIdentifierTail c) (by decide +kernel) h

/-- A name as records have it: letters, the first of which is a small one that begins no mark. -/
structure IsFieldName (name : String) : Prop where
  letters : name.toList.all Char.isAlpha = true
  front : name.toList.head?.any (fun c => c.isLower && c ≠ 'b' && c ≠ 'r') = true

instance (name : String) : Decidable (IsFieldName name) :=
  decidable_of_iff (_ ∧ _) ⟨fun h => ⟨h.1, h.2⟩, fun h => ⟨h.letters, h.front⟩⟩

theorem IsFieldName.exists_cons {name : String} (h : IsFieldName name) :
    ∃ c cs, name.toList = c :: cs ∧ (∀ d ∈ c :: cs, d.isAlpha = true) ∧ c.isLower = true ∧
      c ≠ 'b' ∧ c ≠ 'r' := by
  have hletters := List.all_eq_true.1 h.letters
  rcases (Option.any_eq_true _ _).1 h.front with ⟨c, hc, hfront⟩
  simp only [Bool.and_eq_true, decide_eq_true_eq] at hfront
  rcases List.head?_eq_some_iff.1 hc with ⟨cs, hchars⟩
  rw [hchars] at hletters
  exact ⟨c, cs, hchars, hletters, hfront.1.1, hfront.1.2, hfront.2⟩

/-- The name of a field is read up to the colon behind it. -/
theorem wholeName?_append {name : String} (h : IsFieldName name) (rest : List Char) :
    wholeName? (name.toList ++ ':' :: rest) = some (name, ':' :: rest) := by
  have hcolon : ∀ c ∈ (':' :: rest).head?, isIdentifierTail c = false := by
    intro c hc
    cases hc
    decide +kernel
  rcases h.exists_cons with ⟨c, cs, hchars, hletters, -, hb, hr⟩
  rw [List.forall_mem_cons] at hletters
  have htail : ∀ c ∈ cs, isIdentifierTail c = true :=
    fun c hc => (isIdentifier_of_isAlpha (hletters.2 c hc)).2
  have hname : name? (c :: (cs ++ ':' :: rest)) = some (name, ':' :: rest) := by
    unfold name?
    rw [startsQuoted_cons hb hr, if_neg Bool.false_ne_true]
    split
    · rename_i hcons
      exact absurd (List.head_eq_of_cons_eq hcons) hr
    · rename_i c' cs' _ hcons
      cases hcons
      rw [if_pos (isIdentifier_of_isAlpha hletters.1).1, spanChars_append htail hcolon]
      simp only [← hchars, String.ofList_toList]
    · rename_i hnil
      cases hnil
  have hstop : isWordChar ':' = false := by decide +kernel
  rw [hchars, List.cons_append, wholeName?, hname]
  simp [hstop]

/-! ## Numbers -/

/-- A number with a point, perhaps behind a minus sign. -/
inductive Pointed : List Char → Prop
  | plain {cs : List Char} (h : Json.Positional cs) : Pointed cs
  | negative {cs : List Char} (h : Json.Positional cs) : Pointed ('-' :: cs)

theorem pointed_takenText {t : Taken} {d : Decimal} (h : t.magnitude = .finite d) :
    Pointed (layout.takenText t).toList := by
  have hdecimal := Json.positional_decimalText (l := layout) rfl rfl d
  rw [Layout.takenText, h]
  cases t.negative with
  | false => exact .plain hdecimal
  | true => simpa [String.toList_append] using Pointed.negative hdecimal

/-- Finite 64-bit numbers are written with a point. -/
theorem pointed_floatText {x : Float} (h : x.isFinite = true) :
    Pointed (layout.floatText x).toList := by
  rcases Json.magnitude_ofUnpacked h with ⟨d, hd⟩
  exact pointed_takenText hd

theorem pointed_float32Text {x : Float32} (h : x.isFinite = true) :
    Pointed (layout.float32Text x).toList := by
  rcases Json.magnitude_ofUnpacked h with ⟨d, hd⟩
  exact pointed_takenText hd

theorem Pointed.chars {cs : List Char} (h : Pointed cs) :
    ∀ c ∈ cs, c.isDigit = true ∨ c = '.' ∨ c = '-' := by
  have hpositional : ∀ cs, Json.Positional cs → ∀ c ∈ cs, c.isDigit = true ∨ c = '.' ∨ c = '-' := by
    rintro _ ⟨hwhole, hfraction⟩
    rw [List.forall_mem_append, List.forall_mem_cons]
    exact ⟨fun c hc => Or.inl (hwhole.digits c hc), Or.inr (Or.inl rfl),
      fun c hc => Or.inl (hfraction.digits c hc)⟩
  cases h with
  | plain h => exact hpositional _ h
  | negative h => exact List.forall_mem_cons.2 ⟨Or.inr (Or.inr rfl), hpositional _ h⟩

theorem Pointed.exists_cons {cs : List Char} (h : Pointed cs) :
    ∃ c more, cs = c :: more ∧ (c.isDigit = true ∨ c = '-') := by
  cases h with
  | plain h =>
    rcases h.unsigned.exists_cons with ⟨c, more, rfl, hc⟩
    exact ⟨c, more, rfl, Or.inl hc⟩
  | negative h => exact ⟨'-', _, rfl, Or.inr rfl⟩

theorem decimal?_positional {cs : List Char} (h : Json.Positional cs) :
    ∃ d, Numeral.decimal? cs = some d := by
  rcases h with ⟨hwhole, hfraction⟩
  rename_i whole fraction
  have hfront : spanDigits (whole ++ '.' :: fraction) = (whole, '.' :: fraction) := by
    refine Digits.spanDigits_append hwhole.digits ?_
    intro c hc
    cases hc
    rfl
  have hback : spanDigits fraction = (fraction, []) := by
    have hempty : spanDigits (fraction ++ []) = (fraction, []) :=
      Digits.spanDigits_append hfraction.digits (by simp)
    rwa [List.append_nil] at hempty
  refine ⟨⟨digitsValue (whole ++ fraction), 0 - fraction.length⟩, ?_⟩
  simp [Numeral.decimal?, hfront, hback, hwhole.nonempty, Numeral.exponent?]

/-- Behind the sign of a number with a point are digits, the point and digits. -/
theorem Pointed.splitSign {cs : List Char} (h : Pointed cs) :
    ∃ negative body, Json.Positional body ∧
      ∀ rest, Numeral.splitSign (cs ++ rest) = (negative, body ++ rest) := by
  cases h with
  | plain h =>
    refine ⟨false, cs, h, ?_⟩
    rcases h.unsigned.exists_cons with ⟨c, more, rfl, hc⟩
    have hne := Json.ne_sign_of_isDigit hc
    intro rest
    simp [Numeral.splitSign, hne.1, hne.2]
  | negative h => exact ⟨true, _, h, fun _ => rfl⟩

theorem dropUnderscores?_of_ne {cs : List Char} (h : ∀ c ∈ cs, c ≠ '_') (allowed : Bool) :
    dropUnderscores? allowed cs = some cs := by
  induction cs generalizing allowed with
  | nil => rfl
  | cons c cs ih =>
    rw [List.forall_mem_cons] at h
    rw [dropUnderscores? ]
    · rw [ih h.2]
      rfl
    · exact h.1

theorem namedMagnitude?_positional {cs : List Char} (h : Json.Positional cs) (rest : List Char) :
    namedMagnitude? (cs ++ rest) = none := by
  have hhead : ∀ c ∈ (cs ++ rest).head?, c.isAlpha = false := by
    rcases h.unsigned.exists_cons with ⟨c, more, rfl, hc⟩
    intro d hd
    cases hd
    exact isAlpha_of_isDigit hc
  have hinfinite : ["inf", "inff32", "inff64"].contains
      (String.ofList ((cs ++ rest).takeWhile isIdentifierTail)) = false :=
    contains_takeWhile hhead (by decide)
  have hnan : ["NaN", "NaNf32", "NaNf64"].contains
      (String.ofList ((cs ++ rest).takeWhile isIdentifierTail)) = false :=
    contains_takeWhile hhead (by decide)
  unfold namedMagnitude?
  simp only [hinfinite, hnan]
  rfl

theorem magnitude?_positional {cs : List Char} (h : Json.Positional cs) :
    Numeral.magnitude? cs = (Numeral.decimal? cs).map .finite := by
  rcases h.unsigned.exists_cons with ⟨c, more, rfl, hc⟩
  have hne : ∀ word ∈ ["inf", "infinity", "nan"],
      String.ofList ((c :: more).map Char.toLower) ≠ word := by
    have hletter : ∀ word ∈ ["inf", "infinity", "nan"],
        word.toList.head?.any Char.isAlpha = true := by decide
    intro word hword hsame
    rcases (Option.any_eq_true _ _).1 (hletter word hword) with ⟨d, hd, halpha⟩
    rw [← hsame, String.toList_ofList, List.map_cons, toLower_of_isDigit hc] at hd
    cases hd
    rw [isAlpha_of_isDigit hc] at halpha
    cases halpha
  simp only [List.forall_mem_cons] at hne
  unfold Numeral.magnitude?
  split
  · rename_i hsame
    exact absurd hsame hne.1
  · rename_i hsame
    exact absurd hsame hne.2.1
  · rename_i hsame
    exact absurd hsame hne.2.2.1
  · rfl

/-- A number with a point is read to its end, as the number that its characters spell. -/
theorem real?_append {text : String} (h : Pointed text.toList) :
    ∃ n, Numeral.parse? text = some n ∧ n.magnitude ≠ .notANumber ∧
      ∀ rest, Ends rest → real? (text.toList ++ rest) = some (⟨n, none⟩, rest) := by
  rcases h.splitSign with ⟨negative, body, hbody, hsign⟩
  rcases decimal?_positional hbody with ⟨d, hd⟩
  have hwhole : Numeral.splitSign text.toList = (negative, body) := by
    simpa using hsign []
  refine ⟨⟨negative, .finite d⟩, ?_, nofun, ?_⟩
  · rw [Numeral.parse?, hwhole]
    simp only [magnitude?_positional hbody, hd]
    rfl
  · intro rest hrest
    have hchars : ∀ c ∈ text.toList, isDecimalChar c = true ∧ c ≠ '_' := by
      intro c hc
      rcases h.chars c hc with hdigit | rfl | rfl
      · refine ⟨by simp [isDecimalChar, hdigit], ?_⟩
        rintro rfl
        cases hdigit
      · decide
      · decide
    have hspan : spanChars isDecimalChar (text.toList ++ rest) = (text.toList, rest) :=
      spanChars_append (fun c hc => (hchars c hc).1) (hrest.stops rfl)
    have hdecimal : decimal? (text.toList ++ rest) = some (⟨negative, .finite d⟩, rest) := by
      rw [decimal?, hspan]
      simp only [dropUnderscores?_of_ne (fun c hc => (hchars c hc).2), hd, hwhole,
        Option.bind_eq_bind, Option.bind_some]
    -- A width would be letters, and a comma is none.
    have hwidth : splitRealWidth rest = (none, rest) := by
      have hnone : spanChars isIdentifierTail rest = ([], rest) :=
        by simpa using spanChars_append (List.forall_mem_nil _) (hrest.stops (by decide +kernel))
      rw [splitRealWidth, hnone]
      rfl
    rw [real?, hsign rest]
    simp only [namedMagnitude?_positional hbody, hdecimal, hwidth, Option.bind_eq_bind,
      Option.bind_some]

/-- A point comes before the end of the digits. -/
theorem startsDecimal_append {text rest : List Char} (h : Pointed text) (hrest : Ends rest) :
    startsDecimal (text ++ rest) = true := by
  rcases h.splitSign with ⟨negative, body, ⟨hwhole, hfraction⟩, hsign⟩
  rename_i whole fraction
  have hdigit : ∀ c : Char, c.isDigit = true → isDigitChar c = true ∧ isDecimalChar c = true := by
    intro c hc
    have hread : ('0' ≤ c ∧ c ≤ '9') := by
      simpa [Char.isDigit, Char.le_def] using hc
    exact ⟨by simp [isDigitChar, digit?, hread], by simp [isDecimalChar, hc]⟩
  -- The digits end at the point, and what may belong to a decimal ends behind the fraction.
  have hshort : ((whole ++ '.' :: fraction) ++ rest).takeWhile isDigitChar = whole := by
    rw [List.append_assoc]
    refine congrArg Prod.fst (spanChars_append (fun c hc => (hdigit c (hwhole.digits c hc)).1) ?_)
    intro c hc
    cases hc
    rfl
  have hlong : ((whole ++ '.' :: fraction) ++ rest).takeWhile isDecimalChar =
      whole ++ '.' :: fraction := by
    refine congrArg Prod.fst (spanChars_append ?_ (hrest.stops rfl))
    rw [List.forall_mem_append, List.forall_mem_cons]
    exact ⟨fun c hc => (hdigit c (hwhole.digits c hc)).2, rfl,
      fun c hc => (hdigit c (hfraction.digits c hc)).2⟩
  rw [startsDecimal, hsign rest]
  simp only [hshort, hlong, List.length_append, List.length_cons, decide_eq_true_eq]
  omega

/-- Where any value may stand, a number with a point is that number too. -/
theorem anyNumber?_append {text : String} (h : Pointed text.toList) {n : Numeral}
    (hread : ∀ rest, Ends rest → real? (text.toList ++ rest) = some (⟨n, none⟩, rest))
    (hnumber : n.magnitude ≠ .notANumber) {rest : List Char} (hrest : Ends rest) :
    anyNumber? (text.toList ++ rest) = some (.plain n.toFloat, rest) := by
  have hsigned : n.signed Numeral.toFloat = .plain n.toFloat := if_neg fun hnan => hnumber hnan.2
  rw [anyNumber?, startsDecimal_append h hrest, if_pos rfl, hread rest hrest]
  simp [hsigned]

end GraphScript.Ron

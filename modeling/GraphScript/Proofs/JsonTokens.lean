import GraphScript.Proofs.WrittenNumbers

/-!
# JsonTokens — printed text is read token by token

Whatever a tree says, the reader finds the tokens of the tree in its text and goes on with what
follows.

- `tokens_quote` — a quoted text is one token, whatever characters it has;
- `tokens_word` — so is a word, if what follows does not continue it;
- `treeTokens`, and `tokens_prettyAt` — the tokens of a tree, and where they are found;
- `objectText`, and `tokens_objectText` — an object around texts that are given.
-/

namespace GraphScript.Json

/-- The reader takes one character and goes on in the mode that it leads to. -/
theorem tokensFrom_cons {mode mode' : Mode} {c : Char} {ts : List Token}
    (h : step mode c = (ts, mode')) (cs : List Char) :
    tokensFrom mode (c :: cs) = ts ++ tokensFrom mode' cs := by
  rw [tokensFrom, h]

/-! ## Quoted texts -/

/-- The hexadecimal digits of a control character are read back. -/
theorem hexValue?_of_lt {n : Nat} (h : n < 32) :
    hexValue? (Nat.digitChar (n / 16)) = some (n / 16) ∧
      hexValue? (Nat.digitChar (n % 16)) = some (n % 16) := by
  have hall : ∀ m < 32, hexValue? (Nat.digitChar (m / 16)) = some (m / 16) ∧
      hexValue? (Nat.digitChar (m % 16)) = some (m % 16) := by decide
  exact hall n h

/-- A character that was written by its number is read as the character. -/
theorem tokensFrom_unit (p : Partial) {c : Char} (hc : c.toNat < 32) (rest : List Char) :
    tokensFrom (.unit p 2 0) ((hexByte c.toNat).toList ++ rest) =
      tokensFrom (.text (p.push c)) rest := by
  rcases hexValue?_of_lt hc with ⟨hhigh, hlow⟩
  have hvalue : 16 * (16 * 0 + c.toNat / 16) + c.toNat % 16 = c.toNat := by omega
  have hunit : p.pushUnit c.toNat = p.push c := by
    have hplain : ¬ (0xD800 ≤ c.toNat ∧ c.toNat < 0xDC00) ∧
        ¬ (0xDC00 ≤ c.toNat ∧ c.toNat < 0xE000) := by omega
    rw [Partial.pushUnit, if_neg hplain.1, if_neg hplain.2, Char.ofNat_toNat]
  have hfirst : step (.unit p 2 0) (Nat.digitChar (c.toNat / 16)) =
      ([], .unit p 1 (16 * 0 + c.toNat / 16)) := by
    simp [step, hhigh]
  have hsecond : step (.unit p 1 (16 * 0 + c.toNat / 16)) (Nat.digitChar (c.toNat % 16)) =
      ([], .text (p.push c)) := by
    simp only [step, hlow, hvalue, hunit, Nat.le_refl, if_true]
  rw [hexByte, String.toList_ofList, List.cons_append, tokensFrom_cons hfirst, List.cons_append,
    List.nil_append, tokensFrom_cons hsecond, List.nil_append, List.nil_append]

/-- However a character is written inside a quoted text, it is read as itself. -/
theorem tokensFrom_escape (p : Partial) (c : Char) (rest : List Char) :
    tokensFrom (.text p) ((escape c).toList ++ rest) = tokensFrom (.text (p.push c)) rest := by
  unfold escape
  split
  · rfl
  · rfl
  · rfl
  · rfl
  · rfl
  · rfl
  · rfl
  · rename_i hquote hbackslash _ _ _ _ _
    split
    · -- A control character is written by its number, behind two zeros.
      rename_i hcontrol
      have hfour : step (.unit p 4 0) '0' = ([], .unit p 3 0) := rfl
      have hthree : step (.unit p 3 0) '0' = ([], .unit p 2 0) := rfl
      have hfront : ("\\u00" ++ hexByte c.toNat).toList ++ rest =
          '\\' :: 'u' :: '0' :: '0' :: ((hexByte c.toNat).toList ++ rest) := by
        simp [String.toList_append]
      have hbackslash : step (.text p) '\\' = ([], .escape p) := rfl
      have hunit : step (.escape p) 'u' = ([], .unit p 4 0) := rfl
      rw [hfront, tokensFrom_cons hbackslash, tokensFrom_cons hunit, tokensFrom_cons hfour,
        tokensFrom_cons hthree, tokensFrom_unit p hcontrol rest]
      rfl
    · rename_i hvisible
      have hstep : step (.text p) c = ([], .text (p.push c)) := by
        rw [step, if_neg hquote, if_neg hbackslash, if_neg hvisible]
      rw [Char.toString_eq_singleton, String.toList_singleton, List.singleton_append,
        tokensFrom_cons hstep, List.nil_append]

/-- So are all characters of the text, one after the other. -/
theorem tokensFrom_escapes (p : Partial) (hp : p.half = none) (cs rest : List Char) :
    tokensFrom (.text p) (cs.flatMap (fun c => (escape c).toList) ++ rest) =
      tokensFrom (.text { p with chars := cs.reverse ++ p.chars }) rest := by
  induction cs generalizing p with
  | nil => rfl
  | cons c cs ih =>
    have hpush : p.push c = { p with chars := c :: p.chars } := by simp [Partial.push, hp]
    rw [List.flatMap_cons, List.append_assoc, tokensFrom_escape, hpush]
    refine (ih { p with chars := c :: p.chars } hp).trans ?_
    simp

/-- A quoted text is one token, and the reader goes on behind its closing mark. -/
theorem tokens_quote (s : String) (rest : List Char) :
    tokensFrom .between ((quote s).toList ++ rest) = .text (some s) :: tokensFrom .between rest := by
  have hchars : (quote s).toList ++ rest =
      '"' :: (s.toList.flatMap (fun c => (escape c).toList) ++ '"' :: rest) := by
    simp [quote, String.toList_append, String.toList_join, List.flatMap_map]
  have hfinish : Partial.finish { chars := s.toList.reverse ++ [] } = some s := by
    simp [Partial.finish, String.ofList_toList]
  calc tokensFrom .between ((quote s).toList ++ rest)
      = tokensFrom (.text {}) (s.toList.flatMap (fun c => (escape c).toList) ++ '"' :: rest) := by
        rw [hchars]
        rfl
    _ = tokensFrom (.text { chars := s.toList.reverse ++ [] }) ('"' :: rest) :=
        tokensFrom_escapes {} rfl _ _
    _ = .text (some s) :: tokensFrom .between rest := by
        rw [← hfinish]
        rfl

/-! ## Words -/

/-- What follows does not continue a word. -/
def Ends (rest : List Char) : Prop := ∀ c ∈ rest.head?, isWordChar c = false

/-- A word is read to its end, if what follows does not continue it. -/
theorem tokensFrom_word (read word : List Char) (hword : ∀ c ∈ word, isWordChar c = true)
    {rest : List Char} (hrest : Ends rest) :
    tokensFrom (.word read) (word ++ rest) =
      wordTokens (read.reverse ++ word) ++ tokensFrom .between rest := by
  induction word generalizing read with
  | nil =>
    rw [List.append_nil, List.nil_append]
    cases rest with
    | nil => exact (List.append_nil _).symm
    | cons c rest =>
      have hc : isWordChar c = false := hrest c rfl
      have hstep : step (.word read) c = (wordTokens read.reverse ++ (start c).1, (start c).2) := by
        simp [step, hc]
      have hbetween : step .between c = ((start c).1, (start c).2) := rfl
      rw [tokensFrom_cons hstep, tokensFrom_cons hbetween, List.append_assoc]
  | cons c word ih =>
    rw [List.forall_mem_cons] at hword
    have hstep : step (.word read) c = ([], .word (c :: read)) := by simp [step, hword.1]
    rw [List.cons_append, tokensFrom_cons hstep, ih (c :: read) hword.2]
    simp

theorem start_of_isWordChar {c : Char} (h : isWordChar c = true) : start c = ([], .word [c]) := by
  unfold start
  split
  case h_12 => rw [if_pos h]
  all_goals cases h

/-- A word ends where a character follows that no word has. -/
theorem tokens_word {word rest : List Char} (hword : ∀ c ∈ word, isWordChar c = true)
    (hne : word ≠ []) (hrest : Ends rest) :
    tokensFrom .between (word ++ rest) = wordTokens word ++ tokensFrom .between rest := by
  rcases List.exists_cons_of_ne_nil hne with ⟨c, word, rfl⟩
  rw [List.forall_mem_cons] at hword
  have hstep : step .between c = ([], .word [c]) := start_of_isWordChar hword.1
  rw [List.cons_append, tokensFrom_cons hstep, List.nil_append, tokensFrom_word _ _ hword.2 hrest]
  rfl

/-! ## Numbers -/

/-- The token of a written number. What is written for a number that is not finite is no number. -/
def numberToken (text : String) : Token :=
  match Literal.parse? text.toList with
  | some (l, _) => .number l.number?
  | none => .null

/-- The texts for numbers: numbers in the notation, and a name for what is not finite. -/
def IsNumberText (text : String) : Prop := Written text.toList ∨ text = "null"

theorem wordTokens_of_written {cs : List Char} (h : Written cs) {l : Literal}
    (hparse : Literal.parse? cs = some (l, [])) : wordTokens cs = [.number l.number?] := by
  -- A number begins with a digit or with a sign, so it is none of the names.
  have hname : ∀ c ∈ ['n', 't', 'f'], cs.head? ≠ some c := by
    rcases h.exists_cons with ⟨d, rest, rfl, hd⟩
    intro c hc hhead
    rw [List.head?_cons, Option.some.injEq] at hhead
    subst hhead
    have hall : ∀ c ∈ ['n', 't', 'f'], ¬ (c = '-' ∨ c.isDigit = true) := by simp
    exact hall d hc hd
  unfold wordTokens
  split
  · exact absurd rfl (hname 'n' (by decide))
  · exact absurd rfl (hname 't' (by decide))
  · exact absurd rfl (hname 'f' (by decide))
  · simp [hparse]

/-- The text of a number is a word, and as such one token. -/
theorem wordTokens_of_isNumberText {text : String} (h : IsNumberText text) :
    wordTokens text.toList = [numberToken text] := by
  rcases h with h | rfl
  · rcases h.parse? with ⟨l, hl⟩
    rw [wordTokens_of_written h hl, numberToken, hl]
  · decide

/-- The text of a number is one token, if what follows does not continue it. -/
theorem tokens_number {text : String} (h : IsNumberText text) {rest : List Char}
    (hrest : Ends rest) :
    tokensFrom .between (text.toList ++ rest) = numberToken text :: tokensFrom .between rest := by
  have hword : (∀ c ∈ text.toList, isWordChar c = true) ∧ text.toList ≠ [] := by
    rcases h with h | rfl
    · rcases h.exists_cons with ⟨c, more, hcons, -⟩
      refine ⟨h.isWordChar, ?_⟩
      rw [hcons]
      exact List.cons_ne_nil c more
    · exact ⟨List.all_eq_true.1 rfl, by decide⟩
  rw [tokens_word hword.1 hword.2 hrest, wordTokens_of_isNumberText h]
  rfl

/-- Layouts that give one name to everything that is not finite write numbers or that name. -/
theorem isNumberText_takenText {l : Layout} (hpoint : l.pointZero = true)
    (hsign : l.plusSign = true) (hinfinite : l.infinite = "null")
    (hnan : l.notANumber = "null") (hbare : l.signedInfinity = false ∧ l.signedNaN = false)
    (t : Taken) : IsNumberText (l.takenText t) := by
  cases hmagnitude : t.magnitude with
  | finite d => exact Or.inl (written_takenText hpoint hsign hmagnitude)
  | infinite => simp [IsNumberText, Layout.takenText, hmagnitude, hinfinite, hbare]
  | notANumber => simp [IsNumberText, Layout.takenText, hmagnitude, hnan, hbare]

/-- What is written for a 64-bit number is a text of that kind, whether the number is finite or not. -/
theorem isNumberText_signedText (x : Signed Float) : IsNumberText (wide.signedText x) := by
  cases x with
  | plain x => exact isNumberText_takenText rfl rfl rfl rfl ⟨rfl, rfl⟩ _
  | negativeNaN => exact Or.inr rfl

theorem isNumberText_signed32Text (x : Signed Float32) : IsNumberText (narrow.signed32Text x) := by
  cases x with
  | plain x => exact isNumberText_takenText rfl rfl rfl rfl ⟨rfl, rfl⟩ _
  | negativeNaN => exact Or.inr rfl

/-! ## Trees -/

mutual

/-- The tokens of a tree, whatever blanks are put between them. -/
def treeTokens : Tree → List Token
  | .flag b => [.bool b]
  | .natural n => [numberToken (toString n)]
  | .number x => [numberToken (wide.signedText x)]
  | .single x => [numberToken (narrow.signed32Text x)]
  | .text s => [.text (some s)]
  | .choice name => [.text (some name)]
  | .list items => .openArray :: (itemTokens items ++ [.closeArray])
  | .record fields => .openObject :: (fieldTokens fields ++ [.closeObject])
  | .table entries => .openObject :: (fieldTokens entries ++ [.closeObject])

def itemTokens : List Tree → List Token
  | [] => []
  | [t] => treeTokens t
  | t :: ts => treeTokens t ++ .comma :: itemTokens ts

def fieldTokens : List (String × Tree) → List Token
  | [] => []
  | [(k, t)] => .text (some k) :: .colon :: treeTokens t
  | (k, t) :: fs => .text (some k) :: .colon :: (treeTokens t ++ .comma :: fieldTokens fs)

end

/-! ## Marks and blanks -/

/-- How a token is written that is a single mark. -/
def Token.mark? : Token → Option String
  | .openArray => some "["
  | .closeArray => some "]"
  | .openObject => some "\x7b"
  | .closeObject => some "\x7d"
  | .colon => some ":"
  | .comma => some ","
  | _ => none

def gapChars : List Char := [' ', '\n', '\r', '\t']

section Marks

variable (cs : List Char)

/-- Wherever a mark stands between tokens, it is the token that is written so. -/
theorem tokens_mark (t : Token) {mark : String} (h : t.mark? = some mark) :
    tokensFrom .between (mark.toList ++ cs) = t :: tokensFrom .between cs := by
  cases t <;> cases h <;> rfl

/-- The printer sets a blank behind a colon. -/
theorem tokens_wideColon :
    tokensFrom .between (": ".toList ++ cs) = .colon :: tokensFrom .between cs :=
  tokens_mark (' ' :: cs) .colon rfl

/-- Gaps leave no token. -/
theorem tokens_gap {gap : String} (hgap : ∀ c ∈ gap.toList, c ∈ gapChars) :
    tokensFrom .between (gap.toList ++ cs) = tokensFrom .between cs := by
  have hstep : ∀ c ∈ gapChars, step .between c = ([], .between) := by
    simp only [gapChars, List.forall_mem_cons]
    exact ⟨rfl, rfl, rfl, rfl, fun _ h => nomatch h⟩
  have hskip : ∀ blanks : List Char, (∀ c ∈ blanks, c ∈ gapChars) →
      tokensFrom .between (blanks ++ cs) = tokensFrom .between cs := by
    intro blanks
    induction blanks with
    | nil => exact fun _ => rfl
    | cons c blanks ih =>
      intro hblanks
      rw [List.forall_mem_cons] at hblanks
      rw [List.cons_append, tokensFrom_cons (hstep c hblanks.1)]
      exact ih hblanks.2
  exact hskip gap.toList hgap

/-- The printer breaks lines with gaps. -/
theorem line_gap (level : Nat) : ∀ c ∈ (line level).toList, c ∈ gapChars := by
  have hline : (line level).toList = '\n' :: List.replicate (2 * level) ' ' := by
    simp [line, String.toList_append, String.toList_ofList]
  rw [hline]
  intro c hc
  rcases List.mem_cons.1 hc with rfl | hc
  · decide
  · rw [List.eq_of_mem_replicate hc]
    decide

theorem tokens_line (level : Nat) :
    tokensFrom .between ((line level).toList ++ cs) = tokensFrom .between cs :=
  tokens_gap cs (line_gap level)

theorem ends_cons {c : Char} (hc : isWordChar c = false) : Ends (c :: cs) := by
  intro c' hc'
  cases hc'
  exact hc

variable {cs} in
/-- A gap ends a word, and so does what ends it without a gap. -/
theorem ends_gap {gap : String} (hgap : ∀ c ∈ gap.toList, c ∈ gapChars) (hcs : Ends cs) :
    Ends (gap.toList ++ cs) := by
  have hall : ∀ c ∈ gapChars, isWordChar c = false := by
    simp only [gapChars, List.forall_mem_cons]
    exact ⟨rfl, rfl, rfl, rfl, fun _ h => nomatch h⟩
  cases hchars : gap.toList with
  | nil => exact hcs
  | cons c chars => exact ends_cons _ (hall c (hgap c (hchars ▸ List.mem_cons_self)))

theorem ends_line (level : Nat) : Ends ((line level).toList ++ cs) := by
  rw [line, String.toList_append, List.append_assoc]
  exact ends_cons _ rfl

theorem ends_comma : Ends (",".toList ++ cs) := ends_cons cs rfl

theorem ends_closeObject : Ends ("\x7d".toList ++ cs) := ends_cons cs rfl

end Marks

/-! ## Printed trees -/

/-- A truth value is a word with a meaning of its own. -/
theorem tokens_bool (b : Bool) {rest : List Char} (hrest : Ends rest) :
    tokensFrom .between ((toString b).toList ++ rest) = .bool b :: tokensFrom .between rest := by
  have hword : ∀ b, (∀ c ∈ (toString b).toList, isWordChar c = true) ∧ (toString b).toList ≠ [] ∧
      wordTokens (toString b).toList = [.bool b] := by
    intro b
    cases b with
    | false => exact ⟨List.all_eq_true.1 rfl, by decide, rfl⟩
    | true => exact ⟨List.all_eq_true.1 rfl, by decide, rfl⟩
  rcases hword b with ⟨hchars, hne, htokens⟩
  rw [tokens_word hchars hne hrest, htokens]
  rfl

mutual

/-- The tokens of a tree are found in its text, one item a line. -/
theorem tokens_prettyAt (level : Nat) (t : Tree) {rest : List Char} (hrest : Ends rest) :
    tokensFrom .between ((prettyAt level t).toList ++ rest) =
      treeTokens t ++ tokensFrom .between rest := by
  match t with
  | .flag b =>
    simp only [prettyAt, treeTokens, List.singleton_append]
    exact tokens_bool b hrest
  | .natural n =>
    simp only [prettyAt, treeTokens, List.singleton_append]
    exact tokens_number (Or.inl (written_natural n)) hrest
  | .number x =>
    simp only [prettyAt, treeTokens, List.singleton_append]
    exact tokens_number (isNumberText_signedText x) hrest
  | .single x =>
    simp only [prettyAt, treeTokens, List.singleton_append]
    exact tokens_number (isNumberText_signed32Text x) hrest
  | .text s =>
    simp only [prettyAt, treeTokens, List.singleton_append]
    exact tokens_quote s rest
  | .choice name =>
    simp only [prettyAt, treeTokens, List.singleton_append]
    exact tokens_quote name rest
  | .list [] => simp only [prettyAt, treeTokens, itemTokens]; rfl
  | .list (t :: ts) =>
    have hitems := tokens_prettyItems (level + 1) (t :: ts) (ends_line ("]".toList ++ rest) level)
    simp only [prettyAt, treeTokens, String.toList_append, List.append_assoc,
      tokens_mark _ .openArray rfl, hitems, tokens_line, tokens_mark _ .closeArray rfl,
      List.cons_append, List.nil_append]
  | .record [] => simp only [prettyAt, treeTokens, fieldTokens]; rfl
  | .record (f :: fs) =>
    have hfields := tokens_prettyFields (level + 1) (f :: fs) (ends_line ("\x7d".toList ++ rest) level)
    simp only [prettyAt, treeTokens, String.toList_append, List.append_assoc,
      tokens_mark _ .openObject rfl, hfields, tokens_line, tokens_mark _ .closeObject rfl,
      List.cons_append, List.nil_append]
  | .table [] => simp only [prettyAt, treeTokens, fieldTokens]; rfl
  | .table (f :: fs) =>
    have hfields := tokens_prettyFields (level + 1) (f :: fs) (ends_line ("\x7d".toList ++ rest) level)
    simp only [prettyAt, treeTokens, String.toList_append, List.append_assoc,
      tokens_mark _ .openObject rfl, hfields, tokens_line, tokens_mark _ .closeObject rfl,
      List.cons_append, List.nil_append]

/-- The same of items, with a comma behind each but the last one. -/
theorem tokens_prettyItems (level : Nat) (ts : List Tree) {rest : List Char} (hrest : Ends rest) :
    tokensFrom .between ((prettyItems level ts).toList ++ rest) =
      itemTokens ts ++ tokensFrom .between rest := by
  match ts with
  | [] => simp only [prettyItems, itemTokens]; rfl
  | [t] =>
    have htree := tokens_prettyAt level t hrest
    simp only [prettyItems, itemTokens, String.toList_append, List.append_assoc, tokens_line, htree]
  | t :: u :: ts =>
    have htree := tokens_prettyAt level t
      (ends_comma ((prettyItems level (u :: ts)).toList ++ rest))
    have hmore := tokens_prettyItems level (u :: ts) hrest
    simp only [prettyItems, itemTokens, String.toList_append, List.append_assoc, tokens_line, htree,
      tokens_mark _ .comma rfl, hmore, List.cons_append]

/-- The same of fields. -/
theorem tokens_prettyFields (level : Nat) (fs : List (String × Tree)) {rest : List Char}
    (hrest : Ends rest) :
    tokensFrom .between ((prettyFields level fs).toList ++ rest) =
      fieldTokens fs ++ tokensFrom .between rest := by
  match fs with
  | [] => simp only [prettyFields, fieldTokens]; rfl
  | [(k, t)] =>
    have htree := tokens_prettyAt level t hrest
    simp only [prettyFields, fieldTokens, String.toList_append, List.append_assoc, tokens_line,
      tokens_quote, tokens_wideColon, htree, List.cons_append]
  | (k, t) :: f :: fs =>
    have htree := tokens_prettyAt level t
      (ends_comma ((prettyFields level (f :: fs)).toList ++ rest))
    have hmore := tokens_prettyFields level (f :: fs) hrest
    simp only [prettyFields, fieldTokens, String.toList_append, List.append_assoc, tokens_line,
      tokens_quote, tokens_wideColon, htree, tokens_mark _ .comma rfl, hmore, List.cons_append]

end

/-! ## Objects around given texts -/

/-- The text stands for the tree, whatever follows it. -/
def Stands (text : String) (t : Tree) : Prop :=
  ∀ rest, Ends rest →
    tokensFrom .between (text.toList ++ rest) = treeTokens t ++ tokensFrom .between rest

/-- A printed tree stands for the tree. -/
theorem stands_pretty (t : Tree) : Stands (pretty t) t := fun _ hrest => tokens_prettyAt 0 t hrest

theorem stands_quote (s : String) : Stands (quote s) (.text s) := fun rest _ => by
  rw [treeTokens, List.singleton_append]
  exact tokens_quote s rest

def fieldsText (gap : String) : List (String × String) → String
  | [] => ""
  | [(key, text)] => gap ++ quote key ++ gap ++ ":" ++ gap ++ text ++ gap
  | (key, text) :: fs =>
    gap ++ quote key ++ gap ++ ":" ++ gap ++ text ++ gap ++ "," ++ fieldsText gap fs

/-- An object whose fields have the given texts, with the same gap around all that is in it. -/
def objectText (gap : String) (fields : List (String × String)) : String :=
  "\x7b" ++ fieldsText gap fields ++ "\x7d"

/-- Fields may be given by texts that stand for their values, whoever wrote these. -/
theorem tokens_fieldsText {gap : String} (hgap : ∀ c ∈ gap.toList, c ∈ gapChars)
    {fs : List (String × String)} {ts : List (String × Tree)}
    (h : List.Forall₂ (fun f t => t.1 = f.1 ∧ Stands f.2 t.2) fs ts) {rest : List Char}
    (hrest : Ends rest) :
    tokensFrom .between ((fieldsText gap fs).toList ++ rest) =
      fieldTokens ts ++ tokensFrom .between rest := by
  induction h with
  | nil => rfl
  | @cons f t fs ts hf hfs ih =>
    rcases f with ⟨key, text⟩
    rcases t with ⟨key', t⟩
    rcases hf with ⟨rfl, hf⟩
    cases hfs with
    | nil =>
      have htext := hf _ (ends_gap hgap hrest)
      simp only [fieldsText, fieldTokens, String.toList_append, List.append_assoc, tokens_gap _ hgap,
        tokens_quote, tokens_mark _ .colon rfl, htext, List.cons_append]
    | @cons f t fs ts _ _ =>
      have htext := hf _ (ends_gap hgap (ends_comma ((fieldsText gap (f :: fs)).toList ++ rest)))
      simp only [fieldsText, fieldTokens, String.toList_append, List.append_assoc, tokens_gap _ hgap,
        tokens_quote, tokens_mark _ .colon rfl, htext, tokens_mark _ .comma rfl, ih, List.cons_append]

/-- The text of an object has the tokens of its record. -/
theorem tokens_objectText {gap : String} (hgap : ∀ c ∈ gap.toList, c ∈ gapChars)
    {fs : List (String × String)} {ts : List (String × Tree)}
    (h : List.Forall₂ (fun f t => t.1 = f.1 ∧ Stands f.2 t.2) fs ts) :
    tokens (objectText gap fs) = treeTokens (.record ts) := by
  have hfields := tokens_fieldsText hgap h (ends_closeObject [])
  rw [tokens, ← List.append_nil (objectText gap fs).toList]
  simp only [objectText, treeTokens, String.toList_append, List.append_assoc,
    tokens_mark _ .openObject rfl, hfields, tokens_mark _ .closeObject rfl]
  rfl

end GraphScript.Json

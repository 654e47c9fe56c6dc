import GraphScript.Proofs.RonTexts
import GraphScript.Proofs.TableEntries
import GraphScript.Ron.Format

/-!
# RonReaders — readers take what was printed for them

A reader walks through a text and leaves what it did not read.  What is printed for data is taken off
the front of the text by the reader of that data, whatever follows it as an item.

- `Takes` — the reader takes the text and answers with the data;
- `Collects` — items on lines of their own are taken one after the other (`Collects.itemsWithin`);
- `takes_text`, `takes_single` and the `takes_value` lemmas — data of one piece;
- `takes_list`, `takes_table`, `takes_record` — data in containers;
- `readText_of_takes` — whole texts;
- `ReadsBack` — what has to hold of the characters of a number, so that the number can be read.
-/

namespace GraphScript.Ron

namespace Reader

variable {α β π : Type} {s : Scope} {cs rest : List Char} {a : α}

/-! ## Steps -/

theorem bind_of_eq {r : Reader α} {k : α → Reader β} (h : r s cs = .ok (a, rest)) :
    (r >>= k) s cs = k a s rest := by
  change (r s cs >>= fun read => k read.1 s read.2) = _
  rw [h]
  rfl

theorem get_bind (k : List Char → Reader β) : ((get : Reader (List Char)) >>= k) s cs = k cs s cs :=
  rfl

/-- A part of the text is read by what splits it off. -/
theorem part_of_eq {split : List Char → Option (α × List Char)} (h : split cs = some (a, rest)) :
    part split s cs = .ok (a, rest) := by
  rw [part, get_bind, h]
  rfl

theorem gap_of_eq (h : skipGap cs = some rest) : gap s cs = .ok ((), rest) :=
  part_of_eq (by rw [h]; rfl)

theorem word_cons (c : Char) : word [c] s (c :: rest) = .ok ((), rest) := by
  refine part_of_eq (if_pos ?_)
  simp [List.isPrefixOf]

theorem isNext_eq (c : Char) : isNext c s cs = .ok (decide (cs.head? = some c), cs) := rfl

theorem deeper_succ (r : Reader α) (room : Nat) (extensions : List Extension) :
    deeper r ⟨room + 1, extensions⟩ cs = r ⟨room, extensions⟩ cs := rfl

theorem withReader_apply (f : Scope → Scope) (r : Reader α) (s : Scope) (cs : List Char) :
    withReader f r s cs = r (f s) cs := rfl

/-- Reading also tells which characters were taken. -/
theorem written_of_eq {r : Reader α} (h : r s cs = .ok (a, rest)) :
    ∃ w, written r s cs = .ok ((a, w), rest) := by
  refine ⟨String.ofList (cs.take (cs.length - rest.length)), ?_⟩
  rw [written, get_bind, bind_of_eq h]
  rfl

theorem comma_append (h : skipGap cs = some rest) : comma s (',' :: cs) = .ok (true, rest) := by
  have hsolid : skipGap (',' :: cs) = some (',' :: cs) := skipGap_solid (.cons rfl (by decide) cs)
  rw [comma, bind_of_eq (gap_of_eq hsolid), bind_of_eq (isNext_eq ',')]
  simp only [List.head?_cons, decide_true, if_true]
  rw [bind_of_eq (word_cons ','), bind_of_eq (gap_of_eq h)]
  rfl

theorem colon_append (h : Solid cs) : colon s (':' :: ' ' :: cs) = .ok ((), cs) := by
  have hsolid : skipGap (':' :: ' ' :: cs) = some (':' :: ' ' :: cs) :=
    skipGap_solid (.cons rfl (by decide) _)
  have hblank : skipGap ([' '] ++ cs) = some cs :=
    skipGap_append (fun c hc => Or.inl (List.mem_singleton.1 hc)) h
  rw [colon, bind_of_eq (gap_of_eq hsolid), bind_of_eq (word_cons ':')]
  exact gap_of_eq hblank

/-! ## Containers -/

/-- Can a text of an item begin with the character? It neither belongs to a gap nor ends a container. -/
def opens (c : Char) : Bool := !(isSpace c || ['/', ',', ')', ']', '\x7d'].contains c)

/-- A text that can be an item. -/
def Opens (text : List Char) : Prop := ∃ c more, text = c :: more ∧ opens c = true

theorem Opens.cons {c : Char} (h : opens c = true) (more : List Char) : Opens (c :: more) :=
  ⟨c, more, rfl, h⟩

theorem Opens.append {text : List Char} (h : Opens text) (more : List Char) :
    Opens (text ++ more) := by
  rcases h with ⟨c, text, rfl, hc⟩
  exact .cons hc (text ++ more)

/-- A text that can be an item does not begin with a gap. -/
theorem Opens.solid {text : List Char} (h : Opens text) : Solid text := by
  rcases h with ⟨c, text, rfl, hc⟩
  simp only [opens, Bool.not_eq_true', Bool.or_eq_false_iff] at hc
  exact .cons hc.1 (by rintro rfl; simp at hc) text

/-- A number can be an item. -/
theorem opens_of_pointed {text : List Char} (h : Pointed text) : Opens text := by
  rcases h.exists_cons with ⟨c, more, rfl, hc⟩
  refine .cons ?_ more
  rcases hc with hc | rfl
  · exact of_code (P := Reader.opens) (by decide) (isDigit_iff.1 hc)
  · rfl

theorem opens_of_isLower {c : Char} (h : c.isLower = true) : opens c = true :=
  of_code (P := opens) (by decide) (isLower_iff.1 h)

def itemLine (level : Nat) (text : List Char) : List Char := (line level).toList ++ (text ++ [','])

/-- The items of a container on their lines, and the line on which the container ends. -/
def itemLines (level : Nat) (texts : List (List Char)) : List Char :=
  texts.flatMap (itemLine (level + 1)) ++ (line level).toList

/-- What stands in a container. Where nothing is in it, it has no lines. -/
def body (level : Nat) (texts : List (List Char)) : List Char :=
  if texts.isEmpty then [] else itemLines level texts

def block (level : Nat) (front back : Char) (texts : List (List Char)) : List Char :=
  front :: (body level texts ++ [back])

/-- A container can be an item. -/
theorem opens_block (level : Nat) {front : Char} (h : opens front = true) (back : Char)
    (texts : List (List Char)) : Opens (block level front back texts) := .cons h _

theorem block_append (level : Nat) (front back : Char) (texts : List (List Char))
    (rest : List Char) :
    block level front back texts ++ rest = front :: (body level texts ++ back :: rest) := by
  simp [block]

/-- The reader of items takes the texts one after the other, and collects what they say. -/
inductive Collects (item : α → Reader α) (s : Scope) : α → List (List Char) → α → Prop
  | nil (a : α) : Collects item s a [] a
  | cons {a b c : α} {text : List Char} {texts : List (List Char)} (hopens : Opens text)
      (hitem : ∀ rest, item a s (text ++ ',' :: rest) = .ok (b, ',' :: rest))
      (hmore : Collects item s b texts c) : Collects item s a (text :: texts) c

theorem itemLines_cons (level : Nat) (text : List Char) (texts : List (List Char))
    (rest : List Char) :
    itemLines level (text :: texts) ++ rest =
      (line (level + 1)).toList ++ (text ++ ',' :: (itemLines level texts ++ rest)) := by
  simp [itemLines, itemLine]

section Items

variable {item : α → Reader α} {b : α} {close : Char} {texts : List (List Char)}

/-- Behind the gap at the front of the lines stands the first item, or the closing mark. -/
theorem Collects.skipGap_lines (h : Collects item s a texts b) (level : Nat) (hclose : Solid [close])
    (rest : List Char) :
    ∃ front, Solid front ∧ skipGap (itemLines level texts ++ close :: rest) = some front := by
  cases h with
  | nil =>
    have hsolid : Solid (close :: rest) := hclose
    exact ⟨close :: rest, hsolid, skipGap_line level hsolid⟩
  | cons hopens hitem hmore =>
    rw [itemLines_cons]
    exact ⟨_, (hopens.append _).solid, skipGap_line (level + 1) (hopens.append _).solid⟩

/-- Items are read up to the closing mark, from wherever the gap before the first one is left. -/
theorem Collects.itemsWithin (h : Collects item s a texts b) (level : Nat)
    (hclose : Solid [close]) (hopens : opens close = false) (rest : List Char) {fuel : Nat}
    (hfuel : texts.length < fuel)
    (hcs : skipGap cs = skipGap (itemLines level texts ++ close :: rest)) :
    itemsWithin close item fuel true a s cs = .ok (b, close :: rest) := by
  induction h generalizing fuel cs with
  | nil a =>
    cases fuel with
    | zero => cases hfuel
    | succ fuel =>
      have hgap : skipGap cs = some (close :: rest) := hcs.trans (skipGap_line level hclose)
      rw [Reader.itemsWithin, bind_of_eq (gap_of_eq hgap), bind_of_eq (isNext_eq close)]
      simp
      rfl
  | @cons a b c text texts htext hitem hmore ih =>
    cases fuel with
    | zero => cases hfuel
    | succ fuel =>
      rcases hmore.skipGap_lines level hclose rest with ⟨front, hfront, hskip⟩
      have hgap : skipGap cs = some (text ++ ',' :: (itemLines level texts ++ close :: rest)) := by
        rw [hcs, itemLines_cons]
        exact skipGap_line (level + 1) (htext.append _).solid
      have hnext : decide ((text ++ ',' :: (itemLines level texts ++ close :: rest)).head? =
          some close) = false := by
        rcases htext with ⟨c, text, rfl, hc⟩
        rw [decide_eq_false_iff_not]
        rintro hsame
        cases hsame
        rw [hopens] at hc
        cases hc
      rw [Reader.itemsWithin, bind_of_eq (gap_of_eq hgap), bind_of_eq (isNext_eq close), hnext]
      simp only [Bool.false_eq_true, if_false, if_true]
      -- The comma takes the gap behind it along, so the next round begins behind that gap.
      rw [bind_of_eq (hitem _), bind_of_eq (comma_append hskip)]
      exact ih (by simpa using hfuel) ((skipGap_solid hfront).trans hskip.symm)

/-- What stands in a container is read up to the closing mark. -/
theorem Collects.itemsBefore (h : Collects item s a texts b) (level : Nat)
    (hclose : Solid [close]) (hopens : opens close = false) (rest : List Char) :
    itemsBefore close a item s (body level texts ++ close :: rest) = .ok (b, close :: rest) := by
  -- Every item has a comma, so there are not more items than characters.
  have hlength : ∀ texts : List (List Char), texts.length ≤ (itemLines level texts).length := by
    intro texts
    induction texts with
    | nil => exact Nat.zero_le _
    | cons text texts ih =>
      have hcons := congrArg List.length (itemLines_cons level text texts [])
      simp only [List.append_nil, List.length_append, List.length_cons] at hcons ⊢
      omega
  rw [Reader.itemsBefore, get_bind]
  cases h with
  | nil =>
    have hnil : Collects item s a [] a := .nil a
    refine hnil.itemsWithin level hclose hopens rest (Nat.zero_lt_succ _) ?_
    have hsolid : Solid (close :: rest) := hclose
    exact (skipGap_solid hsolid).trans (skipGap_line level hsolid).symm
  | @cons _ _ _ text texts htext hitem hmore =>
    have hcons := Collects.cons htext hitem hmore
    refine hcons.itemsWithin level hclose hopens rest ?_ rfl
    have hall := hlength (text :: texts)
    have hbody : body level (text :: texts) = itemLines level (text :: texts) := rfl
    rw [hbody, List.length_append]
    omega

/-- Items are read between the marks of their container. -/
theorem Collects.items (h : Collects item s a texts b) (level : Nat) (hclose : Solid [close])
    (hopens : opens close = false) (rest : List Char) :
    items close a item s (body level texts ++ close :: rest) = .ok (b, rest) := by
  rw [Reader.items, bind_of_eq (h.itemsBefore level hclose hopens rest),
    bind_of_eq (word_cons close)]
  rfl

end Items

/-- The text can be an item. Whatever follows it, the reader takes it off the front and answers with
the data. -/
structure Takes (r : Reader α) (room : Nat) (text : List Char) (a : α) : Prop where
  opens : Opens text
  reads : ∀ rest, Ends rest → r ⟨room, []⟩ (text ++ rest) = .ok (a, rest)

theorem ends_comma (rest : List Char) : Ends (',' :: rest) := by
  intro c hc
  cases hc
  rfl

/-! ## Scalars -/

theorem quote_eq_cons (s : String) : ∃ more, (quote s).toList = '"' :: more := by
  simp [quote, Quoted.quote, String.toList_append]

theorem opens_quote (s : String) : Opens (quote s).toList := by
  rcases quote_eq_cons s with ⟨more, hmore⟩
  exact ⟨'"', more, hmore, rfl⟩

/-- A quoted text is read as the text. -/
theorem takes_text (room : Nat) (s : String) : Takes text room (quote s).toList s where
  opens := opens_quote s
  reads rest _ := part_of_eq (text?_quote s rest)

/-- The characters written for a 64-bit number spell the number. -/
def ReadsBack (x : Signed Float) : Prop :=
  ∀ n, Numeral.parse? (layout.signedText x) = some n → .plain n.toFloat = x

def ReadsBack32 (x : Signed Float32) : Prop :=
  ∀ n, Numeral.parse? (layout.signed32Text x) = some n → .plain n.toFloat32 = x

instance (x : Signed Float) : Decidable (ReadsBack x) :=
  inferInstanceAs (Decidable (∀ n ∈ Numeral.parse? (layout.signedText x), .plain n.toFloat = x))

instance (x : Signed Float32) : Decidable (ReadsBack32 x) :=
  inferInstanceAs (Decidable (∀ n ∈ Numeral.parse? (layout.signed32Text x), .plain n.toFloat32 = x))

example : ReadsBack (.plain (-0.1)) ∧ ReadsBack (.plain 1e-30) ∧ ReadsBack32 (.plain 1e30) := by
  decide +kernel

/-- A finite 32-bit number is read again, if its characters spell it. -/
theorem takes_single {x : Signed Float32} (hfinite : x.float32.isFinite = true)
    (h : ReadsBack32 x) (room : Nat) : Takes float32 room (layout.signed32Text x).toList x := by
  cases x with
  | negativeNaN => exact absurd hfinite (by decide)
  | plain x =>
    have hfinite : x.isFinite = true := hfinite
    rcases real?_append (pointed_float32Text hfinite) with ⟨n, hparse, hnumber, hread⟩
    have hsigned : n.signed Numeral.toFloat32 = .plain x := by
      rw [← h n hparse]
      exact if_neg fun hnan => hnumber hnan.2
    refine ⟨opens_of_pointed (pointed_float32Text hfinite), fun rest hrest => ?_⟩
    rcases written_of_eq (part_of_eq (s := ⟨room, []⟩) (hread rest hrest)) with ⟨w, hw⟩
    have hchars : (layout.signed32Text (.plain x)).toList = (layout.float32Text x).toList := rfl
    rw [hchars, float32, number, bind_of_eq hw]
    simp only [hsigned]
    rfl

/-! ## Values -/

/-- Nothing but a word stands for a value by itself. -/
theorem keyword?_takeWhile {kind : Char → Bool} (h : ∀ c ∈ cs.head?, c.isAlpha = false) :
    keyword? (cs.takeWhile kind) = none := by
  have hne : ∀ word ∈ keywords, String.ofList (cs.takeWhile kind) ≠ word :=
    fun _ hword => takeWhile_ne_word h hword
  have hnumber : ["inf", "inff32", "inff64", "NaN", "NaNf32", "NaNf64"].contains
      (String.ofList (cs.takeWhile kind)) = false := contains_takeWhile h (by decide)
  unfold keyword?
  split
  · rename_i hword
    exact absurd hword (hne _ (by decide))
  · rename_i hword
    exact absurd hword (hne _ (by decide))
  · rename_i hword
    exact absurd hword (hne _ (by decide))
  · simp only [hnumber, Bool.false_eq_true, if_false]

/-- What is no letter, no bracket and no head of a name begins a scalar. -/
theorem value_of_scalar (p : Parts) {c : Char} (halpha : c.isAlpha = false)
    (hhead : isIdentifierHead c = false) (hbracket : c ≠ '(' ∧ c ≠ '[' ∧ c ≠ '\x7b') {passed : Passed}
    (h : scalar? (c :: cs) = some (passed, rest)) : p.value s (c :: cs) = .ok (passed, rest) := by
  have hfront : ∀ d ∈ (c :: cs).head?, d.isAlpha = false := by
    intro d hd
    cases hd
    exact halpha
  rcases hspan : spanChars isIdentifierTail (c :: cs) with ⟨letters, behind⟩
  have hletters : (c :: cs).takeWhile isIdentifierTail = letters := by
    rw [spanChars, Prod.mk.injEq] at hspan
    exact hspan.1
  have hkeyword : keyword? letters = none := hletters ▸ keyword?_takeWhile hfront
  have hsome : ¬ letters = "Some".toList := by
    have hne : String.ofList ((c :: cs).takeWhile isIdentifierTail) ≠ "Some" :=
      takeWhile_ne_word hfront (by decide)
    rintro rfl
    rw [hletters, String.ofList_toList] at hne
    exact hne rfl
  have hunit : ¬ "()".toList.isPrefixOf (c :: cs) = true := by
    simp [List.isPrefixOf, Ne.symm hbracket.1]
  -- All that is tried before a scalar begins in another way.
  rw [Parts.value, get_bind, hspan]
  simp only [hkeyword]
  rw [if_neg hsome, if_neg hunit, name?_eq_none halpha hhead]
  refine (congrFun₂ (?_ : _ = part scalar?) s (c :: cs)).trans (part_of_eq h)
  split
  · rename_i hnone
    cases hnone
  · rename_i hcons
    exact absurd (List.head_eq_of_cons_eq hcons) hbracket.1
  · rename_i hcons
    exact absurd (List.head_eq_of_cons_eq hcons) hbracket.2.1
  · rename_i hcons
    exact absurd (List.head_eq_of_cons_eq hcons) hbracket.2.2
  · rfl

/-- Whatever room there is, a value is read as its parts are passed over. -/
theorem value_of_parts {v : Value} (h : ∀ p : Parts, p.value s cs = .ok (some v, rest)) :
    value s cs = .ok (v, rest) := by
  have hany : any s cs = .ok (some v, rest) := by
    change anyWithin s.room false s cs = _
    -- The room decides how containers are passed over, and this value is none.
    rcases s.room with _ | _ | room
    · exact h _
    · exact h _
    · exact h _
  rw [value, bind_of_eq hany]
  rfl

theorem takes_value_text (room : Nat) (s : String) :
    Takes value room (quote s).toList (.text s) := by
  refine ⟨opens_quote s, fun rest _ => ?_⟩
  rcases quote_eq_cons s with ⟨more, hmore⟩
  have hscalar : scalar? ('"' :: (more ++ rest)) = some (some (.text s), rest) := by
    have htext := text?_quote s rest
    rw [hmore, List.cons_append] at htext
    rw [scalar?, htext]
    rfl
  rw [hmore]
  exact value_of_parts fun p => value_of_scalar p rfl (by decide +kernel) (by decide) hscalar

theorem takes_value_flag (room : Nat) (b : Bool) :
    Takes value room (toString b).toList (.bool b) := by
  refine ⟨by cases b <;> exact .cons rfl _, fun rest hrest => ?_⟩
  have htail : ∀ c ∈ (toString b).toList, isIdentifierTail c = true := by
    have hletters : (toString b).toList.all Char.isAlpha = true := by cases b <;> rfl
    exact fun c hc => (isIdentifier_of_isAlpha (List.all_eq_true.1 hletters c hc)).2
  have hspan := spanChars_append htail (hrest.stops (by decide +kernel))
  have hkeyword : keyword? (toString b).toList = some (some (.bool b)) := by cases b <;> rfl
  refine value_of_parts fun p => ?_
  rw [Parts.value, get_bind, hspan]
  simp only [hkeyword]
  rfl

/-- Neither a digit nor a minus sign begins a name or a container. -/
theorem notName_of_number {c : Char} (hc : c.isDigit = true ∨ c = '-') :
    c.isAlpha = false ∧ isIdentifierHead c = false ∧ c ≠ '(' ∧ c ≠ '[' ∧ c ≠ '\x7b' := by
  rcases hc with hc | rfl
  · refine ⟨isAlpha_of_isDigit hc, ?_, ?_⟩
    · have hhead := of_code (P := fun c => !isIdentifierHead c) (by decide +kernel) (isDigit_iff.1 hc)
      simpa using hhead
    · refine ⟨?_, ?_, ?_⟩ <;> rintro rfl <;> cases hc
  · exact ⟨rfl, by decide +kernel, by decide⟩

/-- A digit or a minus sign begins a number, if a scalar. -/
theorem scalar?_number {c : Char} (hc : c.isDigit = true ∨ c = '-') {x : Signed Float}
    (h : anyNumber? (c :: cs) = some (x, rest)) :
    scalar? (c :: cs) = some (some (.number x), rest) := by
  have hne : c ≠ '"' ∧ c ≠ 'r' ∧ c ≠ 'b' ∧ c ≠ '\x27' := by
    refine ⟨?_, ?_, ?_, ?_⟩ <;> rintro rfl <;> exact absurd hc (by decide)
  have hnumber : c.isDigit = true ∨ c = '+' ∨ c = '-' ∨ c = '.' := by
    rcases hc with hc | hc
    · exact Or.inl hc
    · exact Or.inr (Or.inr (Or.inl hc))
  unfold scalar?
  split
  · rename_i hcons
    exact absurd (List.head_eq_of_cons_eq hcons) hne.1
  · rename_i hcons
    exact absurd (List.head_eq_of_cons_eq hcons) hne.2.1
  · rename_i hcons
    exact absurd (List.head_eq_of_cons_eq hcons) hne.2.2.1
  · rename_i hcons
    exact absurd (List.head_eq_of_cons_eq hcons) hne.2.2.1
  · rename_i hcons
    exact absurd (List.head_eq_of_cons_eq hcons) hne.2.2.2
  · rename_i hcons
    cases hcons
    rw [if_pos hnumber, h]
    rfl
  · rename_i hnil
    cases hnil

/-- A finite 64-bit number is a value again, if its characters spell it. -/
theorem takes_value_number {x : Signed Float} (hfinite : x.float.isFinite = true) (h : ReadsBack x)
    (room : Nat) : Takes value room (layout.signedText x).toList (.number x) := by
  cases x with
  | negativeNaN => exact absurd hfinite (by decide)
  | plain x =>
    have hfinite : x.isFinite = true := hfinite
    have hpointed := pointed_floatText hfinite
    rcases real?_append hpointed with ⟨n, hparse, hnumber, hread⟩
    have hchars : (layout.signedText (.plain x)).toList = (layout.floatText x).toList := rfl
    refine ⟨opens_of_pointed hpointed, fun rest hrest => ?_⟩
    have hany := anyNumber?_append hpointed hread hnumber hrest
    rw [h n hparse] at hany
    rw [hchars]
    rcases hpointed.exists_cons with ⟨c, more, hmore, hc⟩
    rw [hmore, List.cons_append] at hany ⊢
    have hfront := notName_of_number hc
    exact value_of_parts fun p =>
      value_of_scalar p hfront.1 hfront.2.1 hfront.2.2 (scalar?_number hc hany)

/-! ## Lists and tables -/

/-- A list is read, if all its items are. -/
theorem takes_list {r : Reader α} {room : Nat} (level : Nat) {texts : List (List Char)} {as : List α}
    (h : List.Forall₂ (Takes r room) texts as) :
    Takes (list r) (room + 2) (block level '[' ']' texts) as := by
  -- The induction needs to know that something was read before.
  have hcollects : ∀ read : List α, Collects (fun as => do return as ++ [← deeper r])
      ⟨room + 1, []⟩ read texts (read ++ as) := by
    induction h with
    | nil =>
      intro read
      rw [List.append_nil]
      exact .nil read
    | @cons text a texts as hitem _ ih =>
      intro read
      have hmore := ih (read ++ [a])
      rw [List.append_assoc] at hmore
      refine .cons hitem.opens (fun rest => ?_) hmore
      have htaken : deeper r ⟨room + 1, []⟩ (text ++ ',' :: rest) = .ok (a, ',' :: rest) :=
        hitem.reads _ (ends_comma rest)
      rw [bind_of_eq htaken]
      rfl
  refine ⟨opens_block level rfl _ _, fun rest _ => ?_⟩
  have hsolid : Solid [']'] := .cons rfl (by decide) []
  rw [block_append, list, bind_of_eq (word_cons '['), deeper_succ]
  exact (hcollects []).items level hsolid rfl rest

def entryText (key : String) (text : List Char) : List Char :=
  (quote key).toList ++ ':' :: ' ' :: text

/-- A table is read, if all its values are. Its entries keep their places. -/
theorem takes_table {r : Reader α} {room : Nat} (level : Nat) {ν : Type} (print : ν → List Char)
    (value : ν → α) {t : Table String ν}
    (h : ∀ e ∈ t.entries, Takes r room (print e.2) (value e.2)) :
    Takes (table r) (room + 2)
      (block level '\x7b' '\x7d' (t.entries.map fun e => entryText e.1 (print e.2)))
      (t.map id Function.injective_id value) := by
  have hcollects : ∀ entries ⊆ t.entries, ∀ read : Table String α,
      Collects (fun table => do
          let key ← deeper text
          colon
          return table.insert key (← deeper r)) ⟨room + 1, []⟩ read
        (entries.map fun e => entryText e.1 (print e.2))
        ((entries.map (Prod.map id value)).foldl (fun t e => t.insert e.1 e.2) read) := by
    intro entries
    induction entries with
    | nil => exact fun _ read => .nil read
    | cons e entries ih =>
      intro hsub read
      rw [List.cons_subset] at hsub
      have hvalue := h e hsub.1
      refine .cons ((opens_quote e.1).append _) (fun rest => ?_) (ih hsub.2 _)
      have hkey : deeper text ⟨room + 1, []⟩
          ((quote e.1).toList ++ ':' :: ' ' :: (print e.2 ++ ',' :: rest)) =
          .ok (e.1, ':' :: ' ' :: (print e.2 ++ ',' :: rest)) := by
        rw [deeper_succ]
        exact part_of_eq (text?_quote e.1 _)
      have htaken : deeper r ⟨room + 1, []⟩ (print e.2 ++ ',' :: rest) =
          .ok (value e.2, ',' :: rest) := hvalue.reads _ (ends_comma rest)
      simp only [entryText]
      rw [List.append_assoc, List.cons_append, List.cons_append, bind_of_eq hkey,
        bind_of_eq (colon_append (hvalue.opens.append _).solid), bind_of_eq htaken]
      rfl
  -- No key comes twice, so no entry takes the place of another.
  have hsame : (t.entries.map (Prod.map id value)).foldl (fun t e => t.insert e.1 e.2) ∅ =
      t.map id Function.injective_id value := by
    refine Table.ext (Table.entries_foldl_insert ?_ fun e _ => rfl)
    exact (t.map id Function.injective_id value).nodup
  have hall := hcollects t.entries (fun _ he => he) ∅
  rw [hsame] at hall
  refine ⟨opens_block level rfl _ _, fun rest _ => ?_⟩
  have hsolid : Solid ['\x7d'] := .cons rfl (by decide) []
  rw [block_append, table, bind_of_eq (word_cons '\x7b'), deeper_succ]
  exact hall.items level hsolid rfl rest

/-! ## Records -/

def fieldText (key : String) (text : List Char) : List Char := key.toList ++ ':' :: ' ' :: text

/-- A field of a record is read, if what it holds is and it was not read before. -/
theorem field_of_takes {r : Record Reader π α} {room : Nat} {key : String} {f : Field Reader π}
    {read : Reader β} {put : β → π → π} {parts : π} {text : List Char} {b : β}
    (hname : IsFieldName key) (hfield : r.fields.find? (·.name = key) = some f)
    (hread : f.read = put <$> read) (hset : f.isSet parts = false) (h : Takes read room text b)
    (rest : List Char) :
    field r parts ⟨room + 1, []⟩ (fieldText key text ++ ',' :: rest) =
      .ok (put b parts, ',' :: rest) := by
  have hkey : deeper (part wholeName?) ⟨room + 1, []⟩
      (key.toList ++ ':' :: ' ' :: (text ++ ',' :: rest)) =
      .ok (key, ':' :: ' ' :: (text ++ ',' :: rest)) := by
    rw [deeper_succ]
    exact part_of_eq (wholeName?_append hname _)
  have htaken : deeper f.read ⟨room + 1, []⟩ (text ++ ',' :: rest) = .ok (put b, ',' :: rest) := by
    rw [deeper_succ, hread, map_eq_pure_bind, bind_of_eq (h.reads _ (ends_comma rest))]
    rfl
  rw [fieldText, List.append_assoc, List.cons_append, List.cons_append, field, bind_of_eq hkey]
  simp only [hfield, hset, Bool.false_eq_true, if_false]
  rw [bind_of_eq (colon_append (h.opens.append _).solid), bind_of_eq htaken]
  rfl

/-- A field that was not read before, and the fields behind it. -/
theorem Collects.field {r : Record Reader π α} {room : Nat} {key : String} {f : Field Reader π}
    {read : Reader β} {put : β → π → π} {parts collected : π} {text : List Char} {b : β}
    {texts : List (List Char)} (hname : IsFieldName key)
    (hfield : r.fields.find? (·.name = key) = some f) (hread : f.read = put <$> read)
    (hset : f.isSet parts = false) (h : Takes read room text b)
    (hmore : Collects (field r) ⟨room + 1, []⟩ (put b parts) texts collected) :
    Collects (Reader.field r) ⟨room + 1, []⟩ parts (fieldText key text :: texts) collected := by
  have hopens : Opens key.toList := by
    rcases hname.exists_cons with ⟨c, more, hchars, -, hlower, -⟩
    rw [hchars]
    exact .cons (opens_of_isLower hlower) more
  exact .cons (hopens.append _) (field_of_takes hname hfield hread hset h) hmore

theorem extended_nil (x : Extension) (room : Nat) :
    extended x ⟨room, []⟩ cs = .ok (false, cs) := rfl

/-- A record may come without its name. -/
theorem recordName_append (name : String) (room : Nat) (cs : List Char) :
    recordName name ⟨room, []⟩ ('(' :: cs) = .ok ((), '(' :: cs) := by
  have hbare : isIdentifierTail '(' = false := by decide +kernel
  rw [recordName, get_bind]
  simp only [List.head?_cons, Option.any_some, hbare, Bool.false_eq_true, if_false]
  rw [bind_of_eq (extended_nil _ _)]
  exact gap_of_eq (skipGap_solid (.cons rfl (by decide) cs))

/-- A record is read, if all its fields are. -/
theorem takes_record {r : Record Reader π α} {room : Nat} (level : Nat) {texts : List (List Char)}
    {parts : π} (h : Collects (field r) ⟨room, []⟩ r.start texts parts)
    (hfinish : r.finish parts = .ok a) :
    Takes (record r) (room + 1) (block level '(' ')' texts) a := by
  refine ⟨opens_block level rfl _ _, fun rest _ => ?_⟩
  have hsolid : Solid [')'] := .cons rfl (by decide) []
  have hitems : deeper (itemsBefore ')' r.start (field r)) ⟨room + 1, []⟩
      (body level texts ++ ')' :: rest) = .ok (parts, ')' :: rest) :=
    h.itemsBefore level hsolid rfl rest
  rw [block_append, record, bind_of_eq (recordName_append _ _ _), bind_of_eq (word_cons '('),
    bind_of_eq hitems]
  simp only [hfinish]
  rw [bind_of_eq (word_cons ')')]
  rfl

/-! ## Whole texts -/

/-- A text without headers is read, if its record is. -/
theorem readText_of_takes {r : Record Reader π α} {text : String}
    (h : Takes (record r) maxRoom text.toList a) (hfront : ∃ more, text.toList = '(' :: more) :
    readText (record r) text = .ok a := by
  have hread : record r ⟨maxRoom, []⟩ text.toList = .ok (a, []) := by
    have hend : Ends [] := fun _ hc => nomatch hc
    simpa using h.reads [] hend
  rcases hfront with ⟨more, hmore⟩
  rw [hmore] at hread
  have hdocument : (record r).document ⟨maxRoom, []⟩ text.toList = .ok (a, []) := by
    have hgap : skipGap ('(' :: more) = some ('(' :: more) :=
      skipGap_solid (.cons rfl (by decide) more)
    -- Headers begin with another mark, so no extension is enabled.
    have hheaders : headers ('(' :: more).length ⟨maxRoom, []⟩ ('(' :: more) =
        .ok ([], '(' :: more) := by
      rw [List.length_cons, headers, bind_of_eq (isNext_eq '#')]
      rfl
    have hscope := withReader_apply (fun s : Scope => { s with extensions := [] }) (record r)
      ⟨maxRoom, []⟩ ('(' :: more)
    rw [hmore, document, bind_of_eq (gap_of_eq hgap), get_bind, bind_of_eq hheaders,
      bind_of_eq (hscope.trans hread)]
    rfl
  rw [readText, hdocument]

end Reader

end GraphScript.Ron

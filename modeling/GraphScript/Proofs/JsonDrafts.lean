import GraphScript.Json.Draft
import GraphScript.Proofs.JsonTokens

/-!
# JsonDrafts — printed text is read as what it says

- `treeDraft` — the draft that a tree is read as;
- `foldl_treeTokens` — the tokens of a tree finish one value, in whatever containers it stands;
- `parse_pretty` — the text of a tree is read as the draft of the tree.

No tree is excluded.  Numbers that are not finite are read as `null`, which is what they are written as.
-/

namespace GraphScript.Json

open Draft

/-! ## The draft of a tree -/

def numberDraft (text : String) : Draft :=
  match Literal.parse? text.toList with
  | some (l, _) => .number l.number?
  | none => .null

mutual

/-- The draft that a tree is read as. -/
def treeDraft : Tree → Draft
  | .flag b => .bool b
  | .natural n => numberDraft (toString n)
  | .number x => numberDraft (wide.signedText x)
  | .single x => numberDraft (narrow.signed32Text x)
  | .text s => .text (some s)
  | .choice name => .text (some name)
  | .list items => .array (itemDrafts items) true
  | .record fields => .object (fieldDrafts fields) true
  | .table entries => .object (fieldDrafts entries) true

def itemDrafts : List Tree → List Draft
  | [] => []
  | t :: ts => treeDraft t :: itemDrafts ts

def fieldDrafts : List (String × Tree) → List (Draft × Draft)
  | [] => []
  | (k, t) :: fs => (.text (some k), treeDraft t) :: fieldDrafts fs

end

/-- Items are read one by one. -/
theorem itemDrafts_eq_map (ts : List Tree) : itemDrafts ts = ts.map treeDraft := by
  induction ts with
  | nil => rfl
  | cons t ts ih => rw [itemDrafts, ih, List.map_cons]

theorem fieldDrafts_eq_map (fs : List (String × Tree)) :
    fieldDrafts fs = fs.map fun (k, t) => (.text (some k), treeDraft t) := by
  induction fs with
  | nil => rfl
  | cons f fs ih => rw [fieldDrafts, ih, List.map_cons]

/-! ## Taking in the tokens -/

/-- A number is finished with its token. -/
theorem next_numberToken (text : String) (frames : List Frame) :
    Need.next (.value frames) (numberToken text) = .finished (numberDraft text) frames := by
  unfold numberToken numberDraft
  cases Literal.parse? text.toList with
  | none => rfl
  | some result => rfl

/-- A tree begins with a token with which a value may begin. -/
theorem exists_start (t : Tree) : ∃ tok more, treeTokens t = tok :: more ∧ tok ≠ .closeArray ∧
    ∀ frames, (Need.start frames tok).isSome = true := by
  have hnumber : ∀ text, numberToken text ≠ .closeArray ∧
      ∀ frames, (Need.start frames (numberToken text)).isSome = true := by
    intro text
    unfold numberToken
    split
    · exact ⟨by simp, fun _ => rfl⟩
    · exact ⟨by simp, fun _ => rfl⟩
  cases t with
  | natural n => exact ⟨_, [], by rw [treeTokens], hnumber _⟩
  | number x => exact ⟨_, [], by rw [treeTokens], hnumber _⟩
  | single x => exact ⟨_, [], by rw [treeTokens], hnumber _⟩
  | _ => exact ⟨_, _, by rw [treeTokens], by simp, fun _ => rfl⟩

/-- Behind an opened array the first value is expected as in any other place. -/
theorem next_first {tok : Token} (hclose : tok ≠ .closeArray)
    (hstart : ∀ frames, (Need.start frames tok).isSome = true) (frames : List Frame) :
    Need.next (.first frames) tok = Need.next (.value (.array [] :: frames)) tok := by
  rcases Option.isSome_iff_exists.1 (hstart (.array [] :: frames)) with ⟨need, hneed⟩
  cases tok with
  | closeArray => exact absurd rfl hclose
  | _ => simp [Need.next, hneed]

mutual

/-- The tokens of a tree finish one value. -/
theorem foldl_treeTokens (t : Tree) (frames : List Frame) :
    (treeTokens t).foldl Need.next (.value frames) = .finished (treeDraft t) frames := by
  match t with
  | .flag b => simp only [treeTokens, treeDraft]; rfl
  | .natural n =>
    simp only [treeTokens, treeDraft, List.foldl_cons, List.foldl_nil, next_numberToken]
  | .number x =>
    simp only [treeTokens, treeDraft, List.foldl_cons, List.foldl_nil, next_numberToken]
  | .single x =>
    simp only [treeTokens, treeDraft, List.foldl_cons, List.foldl_nil, next_numberToken]
  | .text s => simp only [treeTokens, treeDraft]; rfl
  | .choice name => simp only [treeTokens, treeDraft]; rfl
  | .list [] => simp only [treeTokens, treeDraft, itemTokens, itemDrafts]; rfl
  | .list (t :: ts) =>
    -- The first item is taken in as if the array were already open.
    rcases exists_start t with ⟨tok, more, htok, hclose, hstart⟩
    have hitems := foldl_itemTokens (t :: ts) (List.cons_ne_nil t ts) [] frames
    have hfirst : ∃ more, itemTokens (t :: ts) = tok :: more := by
      cases ts with
      | nil => exact ⟨more, by rw [itemTokens, htok]⟩
      | cons u ts =>
        exact ⟨more ++ .comma :: itemTokens (u :: ts), by simp only [itemTokens, htok]; rfl⟩
    rcases hfirst with ⟨more, hmore⟩
    rw [hmore, List.cons_append, List.foldl_cons, ← next_first hclose hstart] at hitems
    rw [treeTokens, treeDraft, hmore]
    exact hitems
  | .record [] => simp only [treeTokens, treeDraft, fieldTokens, fieldDrafts]; rfl
  | .record (f :: fs) =>
    rw [treeTokens, treeDraft]
    exact foldl_fieldTokens (f :: fs) (List.cons_ne_nil f fs) [] true frames
  | .table [] => simp only [treeTokens, treeDraft, fieldTokens, fieldDrafts]; rfl
  | .table (f :: fs) =>
    rw [treeTokens, treeDraft]
    exact foldl_fieldTokens (f :: fs) (List.cons_ne_nil f fs) [] true frames

/-- The tokens of items are taken into the array that is open. The induction is over the items, and the
commas between them are met one step late. -/
theorem foldl_itemTokens (ts : List Tree) (hts : ts ≠ []) (before : List Draft)
    (frames : List Frame) :
    (itemTokens ts ++ [Token.closeArray]).foldl Need.next (.value (.array before :: frames)) =
      .finished (.array (before.reverse ++ itemDrafts ts) true) frames := by
  match ts with
  | [] => exact absurd rfl hts
  | [t] =>
    rw [itemTokens, List.foldl_append, foldl_treeTokens t]
    simp [Need.finished, Need.next, Frame.close, itemDrafts]
  | t :: u :: ts =>
    have hmore := foldl_itemTokens (u :: ts) (List.cons_ne_nil u ts) (treeDraft t :: before) frames
    have htokens : itemTokens (t :: u :: ts) = treeTokens t ++ .comma :: itemTokens (u :: ts) := by
      simp only [itemTokens]
    rw [List.reverse_cons, List.append_assoc] at hmore
    rw [htokens, List.append_assoc, List.foldl_append, foldl_treeTokens t]
    exact hmore

/-- The tokens of fields are taken into the object that is open. -/
theorem foldl_fieldTokens (fs : List (String × Tree)) (hfs : fs ≠ [])
    (before : List (Draft × Draft)) (mayEnd : Bool) (frames : List Frame) :
    (fieldTokens fs ++ [Token.closeObject]).foldl Need.next (.key frames before mayEnd) =
      .finished (.object (before.reverse ++ fieldDrafts fs) true) frames := by
  match fs with
  | [] => exact absurd rfl hfs
  | [(k, t)] =>
    have htree := foldl_treeTokens t (.object before (.text (some k)) :: frames)
    have htokens : fieldTokens [(k, t)] = .text (some k) :: .colon :: treeTokens t := by
      simp only [fieldTokens]
    rw [htokens, List.cons_append, List.cons_append, List.foldl_cons, List.foldl_cons,
      List.foldl_append]
    change [Token.closeObject].foldl Need.next ((treeTokens t).foldl Need.next
      (.value (.object before (.text (some k)) :: frames))) = _
    rw [htree]
    simp [Need.finished, Need.next, Frame.close, fieldDrafts]
  | (k, t) :: f :: fs =>
    have htree := foldl_treeTokens t (.object before (.text (some k)) :: frames)
    have hmore := foldl_fieldTokens (f :: fs) (List.cons_ne_nil f fs)
      ((.text (some k), treeDraft t) :: before) false frames
    have htokens : fieldTokens ((k, t) :: f :: fs) =
        .text (some k) :: .colon :: (treeTokens t ++ .comma :: fieldTokens (f :: fs)) := by
      simp only [fieldTokens]
    rw [List.reverse_cons, List.append_assoc] at hmore
    rw [htokens, List.cons_append, List.cons_append, List.append_assoc, List.foldl_cons,
      List.foldl_cons, List.foldl_append]
    change (.comma :: fieldTokens (f :: fs) ++ [Token.closeObject]).foldl Need.next
      ((treeTokens t).foldl Need.next (.value (.object before (.text (some k)) :: frames))) = _
    rw [htree]
    exact hmore

end

/-! ## Whole texts -/

/-- A text whose tokens are those of a tree is read as the draft of the tree. -/
theorem parse_of_tokens {text : String} {t : Tree} (h : tokens text = treeTokens t) :
    Draft.parse text = (treeDraft t, true) := by
  rw [Draft.parse, h, foldl_treeTokens]
  rfl

/-- The text of a tree is read as the draft of the tree. -/
theorem parse_pretty (t : Tree) : Draft.parse (pretty t) = (treeDraft t, true) := by
  have hends : Ends [] := by
    intro c hc
    cases hc
  have htokens := tokens_prettyAt 0 t hends
  rw [List.append_nil] at htokens
  refine parse_of_tokens (htokens.trans ?_)
  exact List.append_nil _

end GraphScript.Json

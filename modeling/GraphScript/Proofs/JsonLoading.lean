import GraphScript.Json.Format
import GraphScript.Proofs.JsonDrafts
import GraphScript.Proofs.SortedEntries

/-!
# JsonLoading — data read from documents

Data is read from the sorted document that a draft denotes.  What can be read from the parts of a
draft can be read from the whole of it:

- `Loads` — the draft denotes a document from which the reader makes the data;
- `loads_list`, `loads_table` — lists and tables of what can be read;
- `loads_record` — records, field by field in the order of the document, where `takeField` tells
  what a field adds;
- `ReadsBack` — what has to hold of the digits of a number, so that the number can be read.
-/

namespace GraphScript.Json

variable {α β π : Type}

/-- The draft denotes a document from which the reader makes the data. -/
def Loads (read : Reader α) (room : Nat) (d : Draft) (a : α) : Prop :=
  ∃ s, d.sorted? room = some s ∧ read ⟨s, room⟩ = .ok a

theorem map_apply (f : α → β) (read : Reader α) (p : Place) : (f <$> read) p = (read p).map f := rfl

/-- Two lists that are made of one list are related if what is made of each item is. -/
theorem forall₂_map {γ : Type} {R : α → β → Prop} {f : γ → α} {g : γ → β} {xs : List γ}
    (h : ∀ x ∈ xs, R (f x) (g x)) : List.Forall₂ R (xs.map f) (xs.map g) :=
  List.forall₂_map_left_iff.2 (List.forall₂_map_right_iff.2 (List.forall₂_same.2 h))

/-! ## Scalars -/

/-- A text is read from its own draft. -/
theorem loads_text (expected : String) (room : Nat) (s : String) :
    Loads (textOf expected) room (.text (some s)) s :=
  ⟨.text (some s), by rw [Draft.sorted?], rfl⟩

/-- The digits written for a 64-bit number are read as the number. -/
def ReadsBack (x : Signed Float) : Prop :=
  ∀ l, Literal.parse? (wide.signedText x).toList = some (l, []) →
    ∃ n, l.number? = some n ∧ .plain n.toFloat = x

def ReadsBack32 (x : Signed Float32) : Prop :=
  ∀ l, Literal.parse? (narrow.signed32Text x).toList = some (l, []) →
    ∃ n, l.number? = some n ∧ .plain n.toFloat32 = x

/-- Whether digits are read back can be tried out. -/
theorem readsBack_iff {φ : Type} {text : List Char} {x : Signed φ} {convert : Number → φ} :
    (∀ l, Literal.parse? text = some (l, []) → ∃ n, l.number? = some n ∧ .plain (convert n) = x) ↔
      ∀ l ∈ (Literal.parse? text).filter (·.2.isEmpty),
        l.1.number?.map (fun n => Signed.plain (convert n)) = some x := by
  cases hparse : Literal.parse? text with
  | none => simp
  | some found =>
    rcases found with ⟨l, rest⟩
    cases rest with
    | nil => simp [Option.map_eq_some_iff]
    | cons c rest => simp

instance (x : Signed Float) : Decidable (ReadsBack x) := decidable_of_iff' _ readsBack_iff

instance (x : Signed Float32) : Decidable (ReadsBack32 x) := decidable_of_iff' _ readsBack_iff

-- Reading rounds twice, so there are numbers that do not come back.
example : ReadsBack (.plain 0.1) ∧ ¬ ReadsBack (.plain 1e-30) := by decide +kernel

/-- A written number is read as a number, and what reading it yields has the property of all its
readings. -/
theorem numberDraft_of_written {text : String} (h : Written text.toList) {P : Number → Prop}
    (hreads : ∀ l, Literal.parse? text.toList = some (l, []) → ∃ n, l.number? = some n ∧ P n) :
    ∃ n, numberDraft text = .number (some n) ∧ P n := by
  rcases h.parse? with ⟨l, hl⟩
  rcases hreads l hl with ⟨n, hn, hP⟩
  refine ⟨n, ?_, hP⟩
  rw [numberDraft, hl]
  exact congrArg Draft.number hn

/-- A finite 64-bit number is a value again, if its digits are read as the number. -/
theorem loads_number {x : Signed Float} (hfinite : x.float.isFinite = true) (h : ReadsBack x)
    (room : Nat) : Loads valueOf room (numberDraft (wide.signedText x)) (.number x) := by
  cases x with
  | negativeNaN => exact absurd hfinite (by decide)
  | plain x =>
    rcases numberDraft_of_written (written_floatText hfinite) h with ⟨n, hn, hx⟩
    have hdraft : numberDraft (wide.signedText (.plain x)) = .number (some n) := hn
    have hsorted : Draft.sorted? room (.number (some n)) = some (.number (some n)) := by
      rw [Draft.sorted?]
    rw [hdraft]
    refine ⟨.number (some n), hsorted, ?_⟩
    rw [valueOf, Draft.isSound, hsorted, ← hx]
    rfl

/-- A finite number of 32 bits is read from its digits. -/
theorem loads_single {x : Signed Float32} (hfinite : x.float32.isFinite = true)
    (h : ReadsBack32 x) (expected : String) (room : Nat) :
    Loads (numberOf (Signed.plain ·.toFloat32) expected) room
      (numberDraft (narrow.signed32Text x)) x := by
  cases x with
  | negativeNaN => exact absurd hfinite (by decide)
  | plain x =>
    rcases numberDraft_of_written (written_float32Text hfinite) h with ⟨n, hn, hx⟩
    have hdraft : numberDraft (narrow.signed32Text (.plain x)) = .number (some n) := hn
    rw [hdraft]
    refine ⟨.number (some n), by rw [Draft.sorted?], ?_⟩
    rw [← hx]
    rfl

/-! ## Lists -/

/-- A list is read from the drafts of its items. -/
theorem loads_list {read : Reader α} {room : Nat} {ds : List Draft} {as : List α}
    (h : List.Forall₂ (Loads read room) ds as) :
    Loads (listOf read) (room + 1) (.array ds true) as := by
  -- Sorting and reading go through the items together.
  have hall : ∃ ss, Draft.sortedItems? room ds = some ss ∧
      ss.mapM (fun s => read ⟨s, room⟩) = .ok as := by
    induction h with
    | nil => exact ⟨[], by rw [Draft.sortedItems?], rfl⟩
    | @cons d a ds as hd _ ih =>
      rcases hd with ⟨s, hs, ha⟩
      rcases ih with ⟨ss, hss, has⟩
      refine ⟨s :: ss, ?_, ?_⟩
      · rw [Draft.sortedItems?, hs, hss]
        rfl
      · rw [List.mapM_cons, ha, has]
        rfl
  rcases hall with ⟨ss, hss, has⟩
  refine ⟨.array ss true, ?_, ?_⟩
  · rw [Draft.sorted?, if_neg (Nat.succ_ne_zero room), Nat.add_one_sub_one, hss]
    rfl
  · change (do
      let as ← ss.mapM fun s => read ⟨s, room⟩
      closing true
      pure as) = .ok as
    rw [has]
    rfl

/-! ## Objects -/

/-- The document of an object has its entries sorted by their keys. -/
theorem sorted?_object {room : Nat} {es sorted : List (String × Draft)}
    (h : List.Forall₂ (fun e s => s.1 = e.1 ∧ Draft.sorted? room e.2 = some s.2) es sorted) :
    Draft.sorted? (room + 1) (.object (Draft.asEntries es) true) =
      some (.object (Draft.asEntries (sortKeys sorted)) true) := by
  rw [Draft.sorted?, if_neg (Nat.succ_ne_zero room), Nat.add_one_sub_one,
    Draft.sortedEntries?_asEntries h]
  rfl

/-- The fields of a record, as a draft has them. -/
theorem treeDraft_record (fs : List (String × Tree)) :
    treeDraft (.record fs) = .object (Draft.asEntries (fs.map (Prod.map id treeDraft))) true := by
  rw [treeDraft, fieldDrafts_eq_map, Draft.asEntries, List.map_map]
  rfl

theorem treeDraft_table (es : List (String × Tree)) :
    treeDraft (.table es) = .object (Draft.asEntries (es.map (Prod.map id treeDraft))) true := by
  rw [treeDraft, fieldDrafts_eq_map, Draft.asEntries, List.map_map]
  rfl

def collect (read : Reader α) (inside : Draft → Place) (table : Table String α)
    (entry : Draft × Draft) : Result (Table String α) :=
  match entry.1 with
  | .text (some key) => (read (inside entry.2)).map (table.insert key)
  | _ => .error .malformed

theorem collect_text (read : Reader α) (inside : Draft → Place) (table : Table String α)
    (key : String) (d : Draft) : collect read inside table (.text (some key), d) =
      (read (inside d)).map (table.insert key) := rfl

theorem tableOf_object (read : Reader α) (room : Nat) (entries : List (Draft × Draft)) :
    tableOf read ⟨.object entries true, room + 1⟩ =
      entries.foldlM (collect read (⟨·, room⟩)) ∅ := by
  have hfold : ∀ step : Table String α → Draft × Draft → Result (Table String α),
      (∀ table entry, step table entry = collect read (⟨·, room⟩) table entry) →
      (entries.foldlM step ∅ >>= fun table => closing true >>= fun _ => pure table) =
        entries.foldlM (collect read (⟨·, room⟩)) ∅ := by
    intro step hstep
    rw [funext₂ hstep]
    exact bind_pure _
  refine hfold _ ?_
  rintro table ⟨key, d⟩
  cases key with
  | text s => cases s <;> rfl
  | _ => rfl

/-- A table is read, if all its values are. Its entries come in the order of their keys. -/
theorem loads_table {read : Reader α} {room : Nat} (draft : β → Draft) (value : β → α)
    {t : Table String β} (h : ∀ e ∈ t.entries, Loads read room (draft e.2) (value e.2)) :
    Loads (tableOf read) (room + 1)
      (.object (Draft.asEntries (t.entries.map (Prod.map id draft))) true)
      (sortedTable value t) := by
  -- What a value is as a document.
  let document (b : β) : Draft := ((draft b).sorted? room).getD .null
  have hdocument : ∀ e ∈ t.entries, Draft.sorted? room (draft e.2) = some (document e.2) ∧
      read ⟨document e.2, room⟩ = .ok (value e.2) := by
    intro e he
    rcases h e he with ⟨s, hs, hread⟩
    have hsame : document e.2 = s := by simp only [document, hs, Option.getD_some]
    rw [hsame]
    exact ⟨hs, hread⟩
  have hsorted : List.Forall₂ (fun e s => s.1 = e.1 ∧ Draft.sorted? room e.2 = some s.2)
      (t.entries.map (Prod.map id draft)) (t.entries.map (Prod.map id document)) :=
    forall₂_map fun e he => ⟨rfl, (hdocument e he).1⟩
  -- The values are read in the order of their keys.
  have hread : ∀ entries ⊆ t.entries, ∀ collected : Table String α,
      (Draft.asEntries (entries.map (Prod.map id document))).foldlM
        (collect read (⟨·, room⟩)) collected =
      .ok ((entries.map (Prod.map id value)).foldl (fun t e => t.insert e.1 e.2) collected) := by
    intro entries
    induction entries with
    | nil => exact fun _ _ => rfl
    | cons e entries ih =>
      intro hsub collected
      rw [List.cons_subset] at hsub
      have hcons : Draft.asEntries ((e :: entries).map (Prod.map id document)) =
          (.text (some e.1), document e.2) ::
            Draft.asEntries (entries.map (Prod.map id document)) := rfl
      have hvalue := (hdocument e hsub.1).2
      rw [hcons, List.foldlM_cons, collect_text, hvalue]
      exact ih hsub.2 _
  have hall := hread (sortKeys t.entries) (fun _ he => mem_of_mem_sortKeys he) ∅
  rw [foldl_insert_eq_sortedTable] at hall
  refine ⟨_, sorted?_object hsorted, ?_⟩
  rw [sortKeys_map, tableOf_object, hall]

/-! ## Records -/

/-- Take in what was read under one key, if its field was not read before. -/
def takeField (r : Record Reader π α) (parts : π) (e : String × (π → π)) : Result π :=
  if (r.fields.find? (·.name = e.1)).any (·.isSet parts) then .error (.duplicateField e.1 r.name)
  else .ok (e.2 parts)

/-- An entry of an object can be read into a record, to which it adds something. -/
def Adds (r : Record Reader π α) (room : Nat) (e : String × Draft) (add : String × (π → π)) :
    Prop :=
  add.1 = e.1 ∧ ∃ s, Draft.sorted? room e.2 = some s ∧
    ∀ parts, readField r (⟨·, room⟩) parts (.text (some e.1), s) = takeField r parts add

/-- An entry whose key is that of a field adds what the field reads. -/
theorem adds_field {r : Record Reader π α} {room : Nat} {key : String} {field : Field Reader π}
    {read : Reader β} {put : β → π → π} {d : Draft} {b : β}
    (hfield : r.fields.find? (·.name = key) = some field) (hread : field.read = put <$> read)
    (h : Loads read room d b) : Adds r room (key, d) (key, put b) := by
  rcases h with ⟨s, hs, hb⟩
  refine ⟨rfl, s, hs, ?_⟩
  intro parts
  have hput : field.read ⟨s, room⟩ = .ok (put b) := by rw [hread, map_apply, hb]; rfl
  simp only [readField, takeField, hfield, hput, Option.any_some]
  rfl

/-- A text under a key that is not a field adds nothing. -/
theorem adds_unknown {r : Record Reader π α} {room : Nat} {key : String}
    (hfield : r.fields.find? (·.name = key) = none) (s : String) :
    Adds r room (key, .text (some s)) (key, id) := by
  refine ⟨rfl, .text (some s), by rw [Draft.sorted?], ?_⟩
  intro parts
  simp only [readField, takeField, hfield, Draft.isPassable]
  rfl

/-- Entries with different keys, each of which sets no field but its own, are all taken in. -/
theorem foldlM_takeField {r : Record Reader π α} {adds : List (String × (π → π))} {parts : π}
    (hnodup : (adds.map Prod.fst).Nodup)
    (hown : ∀ add ∈ adds, ∀ field ∈ r.fields, field.name ≠ add.1 →
      ∀ parts, field.isSet (add.2 parts) = field.isSet parts)
    (hnew : ∀ field ∈ r.fields, field.isSet parts = false) :
    adds.foldlM (takeField r) parts = .ok (adds.foldl (fun parts add => add.2 parts) parts) := by
  -- The fields whose keys are still to come are not set.
  have hfold : ∀ parts, (∀ field ∈ r.fields, field.name ∈ adds.map Prod.fst →
      field.isSet parts = false) →
      adds.foldlM (takeField r) parts =
        .ok (adds.foldl (fun parts add => add.2 parts) parts) := by
    clear hnew
    induction adds with
    | nil => exact fun _ _ => rfl
    | cons add adds ih =>
      intro parts hnew
      rw [List.map_cons, List.nodup_cons] at hnodup
      rw [List.forall_mem_cons] at hown
      have htaken : takeField r parts add = .ok (add.2 parts) := by
        refine if_neg ?_
        intro hset
        rcases (Option.any_eq_true _ _).1 hset with ⟨field, hfield, hset⟩
        have hname : field.name = add.1 := by simpa using List.find?_some hfield
        have hclear := hnew field (List.mem_of_find?_eq_some hfield) (hname ▸ List.mem_cons_self)
        exact absurd hset (by simp [hclear])
      have hrest : ∀ field ∈ r.fields, field.name ∈ adds.map Prod.fst →
          field.isSet (add.2 parts) = false := by
        intro field hfield hlater
        have hne : field.name ≠ add.1 := fun hname => hnodup.1 (hname ▸ hlater)
        rw [hown.1 field hfield hne]
        exact hnew field hfield (List.mem_cons_of_mem _ hlater)
      rw [List.foldlM_cons, htaken]
      exact ih hnodup.2 hown.2 (add.2 parts) hrest
  exact hfold parts fun field hfield _ => hnew field hfield

/-- A record is read, if each of its entries is. They are taken in in the order of their keys. -/
theorem loads_record {r : Record Reader π α} {room : Nat} {es : List (String × Draft)}
    {adds : List (String × (π → π))} {parts : π} {a : α}
    (hes : List.Forall₂ (Adds r room) es adds)
    (hparts : (sortKeys adds).foldlM (takeField r) r.start = .ok parts)
    (hfinish : r.finish parts = .ok a) :
    Loads (recordOf .document r) (room + 1) (.object (Draft.asEntries es) true) a := by
  -- The documents of the entries, next to what they add: both are sorted by the same keys.
  have hpairs : ∃ pairs : List (String × Draft × (π → π)),
      List.Forall₂ (fun e s => s.1 = e.1 ∧ Draft.sorted? room e.2 = some s.2) es
        (pairs.map (Prod.map id Prod.fst)) ∧
      pairs.map (Prod.map id Prod.snd) = adds ∧
      ∀ e ∈ pairs, ∀ parts, readField r (⟨·, room⟩) parts (.text (some e.1), e.2.1) =
        takeField r parts (e.1, e.2.2) := by
    clear hparts
    induction hes with
    | nil => exact ⟨[], .nil, rfl, fun _ h => nomatch h⟩
    | @cons e add es adds he _ ih =>
      rcases e with ⟨key, d⟩
      rcases add with ⟨key', add⟩
      rcases he with ⟨rfl, s, hs, hread⟩
      rcases ih with ⟨pairs, hdocuments, hadds, hall⟩
      refine ⟨(key', s, add) :: pairs, .cons ⟨rfl, hs⟩ hdocuments, ?_, ?_⟩
      · rw [List.map_cons, hadds]
        rfl
      · exact List.forall_mem_cons.2 ⟨hread, hall⟩
  rcases hpairs with ⟨pairs, hdocuments, rfl, hall⟩
  have hfold : ∀ entries ⊆ pairs, ∀ start,
      (Draft.asEntries (entries.map (Prod.map id Prod.fst))).foldlM
        (readField r (⟨·, room⟩)) start =
      (entries.map (Prod.map id Prod.snd)).foldlM (takeField r) start := by
    intro entries
    induction entries with
    | nil => exact fun _ _ => rfl
    | cons e entries ih =>
      intro hsub start
      rw [List.cons_subset] at hsub
      have hcons : Draft.asEntries ((e :: entries).map (Prod.map id Prod.fst)) =
          (.text (some e.1), e.2.1) :: Draft.asEntries (entries.map (Prod.map id Prod.fst)) := rfl
      rw [hcons, List.foldlM_cons, hall e hsub.1, List.map_cons, List.foldlM_cons]
      exact bind_congr (ih hsub.2)
  have hread := hfold (sortKeys pairs) (fun _ he => mem_of_mem_sortKeys he) r.start
  rw [← sortKeys_map, ← sortKeys_map, hparts] at hread
  refine ⟨_, sorted?_object hdocuments, ?_⟩
  simp only [recordOf, Place.enter]
  simp only [bind, Except.bind, hread, closing, hfinish]
  rfl

end GraphScript.Json

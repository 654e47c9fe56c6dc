import GraphScript.Proofs.RestoredGraphs

/-!
# ReadFields — where the parts of read data come from

A reader that succeeds has found every part of its data in a part of the draft.

- `Lists` — the entries of a draft under their names: those of an object, or the items of an array,
  named after the fields of a record; `lastValue?` — of entries with one name the last one counts;
- `Filled` — the entries went into the parts of a record one after the other; `Slot` — under this key
  this reader is used, and here the parts keep what it found; `Filled.slot` puts the two together;
- `listOf_eq_ok`, `tableOf_eq_ok`, `recordOf_eq_ok` — containers that are read from a draft;
- `Loads.list`, `Loads.table`, `Loads.record` — the same where the sorted document is read;
- `slot_x` to `slot_graph` — the slots of the records of a project;
- `readText_eq_ok`, `authored_eq_ok` — whole texts.
-/

namespace GraphScript.Json

variable {α β γ π : Type}

/-! ## Successful steps -/

theorem bind_eq_ok {ε : Type} {x : Except ε α} {f : α → Except ε β} {b : β} :
    x >>= f = .ok b ↔ ∃ a, x = .ok a ∧ f a = .ok b := by
  cases x with
  | error e => exact ⟨(nomatch ·), fun ⟨_, h, _⟩ => nomatch h⟩
  | ok a => exact ⟨fun h => ⟨a, rfl, h⟩, fun ⟨_, ha, h⟩ => Except.ok.inj ha ▸ h⟩

theorem map_eq_ok {ε : Type} {x : Except ε α} {f : α → β} {b : β} :
    x.map f = .ok b ↔ ∃ a, x = .ok a ∧ f a = b := by
  cases x with
  | error e => exact ⟨(nomatch ·), fun ⟨_, h, _⟩ => nomatch h⟩
  | ok a =>
    refine ⟨fun h => ⟨a, rfl, Except.ok.inj h⟩, ?_⟩
    rintro ⟨_, ha, rfl⟩
    cases ha
    rfl

/-- A check of a result that came out as yes tells that there is a result. -/
theorem exists_eq_ok {ε : Type} {x : Except ε α} {P : α → Bool} (h : x.toOption.any P = true) :
    ∃ a, x = .ok a ∧ P a = true := by
  cases x with
  | error e => cases h
  | ok a => exact ⟨a, rfl, h⟩

/-- A list is read just if its items are, one by one. -/
theorem mapM_eq_ok {ε : Type} {f : α → Except ε β} {as : List α} {bs : List β} :
    as.mapM f = .ok bs ↔ List.Forall₂ (fun a b => f a = .ok b) as bs := by
  induction as generalizing bs with
  | nil => exact ⟨fun h => Except.ok.inj h ▸ .nil, fun h => by cases h; rfl⟩
  | cons a as ih =>
    rw [List.mapM_cons, bind_eq_ok]
    constructor
    · rintro ⟨b, hb, hmore⟩
      rcases bind_eq_ok.1 hmore with ⟨bs', hbs', hcons⟩
      exact Except.ok.inj hcons ▸ .cons hb (ih.1 hbs')
    · rintro (_ | ⟨hb, hbs⟩)
      exact ⟨_, hb, bind_eq_ok.2 ⟨_, ih.2 hbs, rfl⟩⟩

theorem exists_rel_of_mem {R : α → β → Prop} {as : List α} {bs : List β} {a : α}
    (h : List.Forall₂ R as bs) (ha : a ∈ as) : ∃ b ∈ bs, R a b := by
  induction h with
  | nil => cases ha
  | cons hab _ ih =>
    rcases List.mem_cons.1 ha with rfl | ha
    · exact ⟨_, List.mem_cons_self, hab⟩
    · rcases ih ha with ⟨b, hb, hab⟩
      exact ⟨b, List.mem_cons_of_mem _ hb, hab⟩

theorem mismatch_ne_ok {p : Place} {expected : String} {a : α} : p.mismatch expected ≠ .ok a := by
  intro h
  rcases bind_eq_ok.1 h with ⟨_, _, h⟩
  cases h

theorem closing_eq_ok {closed : Bool} {u : Unit} (h : closing closed = .ok u) : closed = true := by
  cases closed with
  | true => rfl
  | false => cases h

/-- Entering a container takes one level of the room that is left. -/
theorem enter_eq_ok {d : Draft} {room : Nat} {inside : Draft → Place}
    (h : Place.enter ⟨d, room⟩ = .ok inside) :
    ∃ room', room = room' + 1 ∧ inside = (⟨·, room'⟩) := by
  cases room with
  | zero => cases h
  | succ room => exact ⟨room, rfl, (Except.ok.inj h).symm⟩

/-! ## Entries -/

/-- The last entry with the key. -/
def lastValue? (key : String) (es : List (String × α)) : Option α := Entries.get? key es.reverse

section LastValue

variable {key k : String} {a : α} {es : List (String × α)}

theorem lastValue?_append : lastValue? key (es ++ [(k, a)]) =
    if k = key then some a else lastValue? key es := by
  rw [lastValue?, List.reverse_append]
  rfl

/-- The last entry with a key is an entry. -/
theorem mem_of_lastValue? (h : lastValue? key es = some a) : (key, a) ∈ es := by
  induction es using List.reverseRecOn with
  | nil => cases h
  | append_singleton es e ih =>
    rw [lastValue?_append] at h
    split at h
    · rename_i hkey
      cases h
      exact List.mem_append_right _ (hkey ▸ List.mem_singleton_self _)
    · exact List.mem_append_left _ (ih h)

/-- Where no key occurs twice, the last entry is the only one. -/
theorem lastValue?_eq_some_iff (hnodup : (es.map Prod.fst).Nodup) :
    lastValue? key es = some a ↔ (key, a) ∈ es := by
  have hreverse : (es.reverse.map Prod.fst).Nodup := by
    rw [List.map_reverse]
    exact List.nodup_reverse.2 hnodup
  rw [lastValue?, Entries.get?_eq_some_iff hreverse, List.mem_reverse]

/-- Sorting keeps the last entry of each key. -/
theorem lastValue?_sortKeys (es : List (String × α)) :
    lastValue? key (sortKeys es) = lastValue? key es := by
  have hget : Entries.get? key (sortKeys es) = lastValue? key es := by
    induction es using List.reverseRecOn with
    | nil => rfl
    | append_singleton es e ih =>
      have hinsert : sortKeys (es ++ [e]) = insertKey e.1 e.2 (sortKeys es) := by
        rw [sortKeys, List.foldl_append]
        rfl
      rw [hinsert, get?_insertKey, lastValue?_append, ih]
  -- No key occurs twice in the sorted entries, so their order does not matter.
  refine Eq.trans ?_ hget
  ext a
  rw [lastValue?_eq_some_iff (nodup_sortKeys es), Entries.get?_eq_some_iff (nodup_sortKeys es)]

/-- Entries that are related key by key have related last entries. -/
theorem rel_lastValue? {R : α → β → Prop} {es : List (String × α)} {es' : List (String × β)}
    (h : List.Forall₂ (fun e e' => e'.1 = e.1 ∧ R e.2 e'.2) es es') (key : String) :
    Option.Rel R (lastValue? key es) (lastValue? key es') := by
  have hreverse := List.rel_reverse h
  rw [lastValue?, lastValue?]
  -- The last entry is the first one from behind, so the induction is on the reversed lists.
  generalize es.reverse = es at hreverse
  generalize es'.reverse = es' at hreverse
  induction hreverse with
  | nil => exact .none
  | @cons e e' es es' he _ ih =>
    rcases e with ⟨k, a⟩
    rcases e' with ⟨k', a'⟩
    rcases he with ⟨rfl, ha⟩
    simp only [Entries.get?]
    split
    · exact .some ha
    · exact ih

end LastValue

/-- The draft has these entries, where a record with these names is read. -/
inductive Lists (names : List String) : Draft → List (String × Draft) → Prop
  | object (es : List (String × Draft)) : Lists names (.object (Draft.asEntries es) true) es
  | array {items : List Draft} (h : items.length ≤ names.length) :
      Lists names (.array items true) (names.zip items)

theorem asEntries_append (es : List (String × Draft)) (key : String) (d : Draft) :
    Draft.asEntries es ++ [(.text (some key), d)] = Draft.asEntries (es ++ [(key, d)]) := by
  rw [Draft.asEntries, Draft.asEntries, List.map_append]
  rfl

/-- Entries are told apart by their drafts. -/
theorem asEntries_injective : Function.Injective Draft.asEntries := by
  refine List.map_injective_iff.2 ?_
  rintro ⟨k, d⟩ ⟨k', d'⟩ h
  cases h
  rfl

/-- A draft lists its entries in one way only. -/
theorem Lists.unique {names : List String} {d : Draft} {es es' : List (String × Draft)}
    (h : Lists names d es) (h' : Lists names d es') : es = es' := by
  cases h with
  | object es =>
    -- The keys have to be taken back out of the draft: `cases` cannot solve for them.
    generalize hobject : Draft.object (Draft.asEntries es) true = d at h'
    cases h' with
    | object es' => exact asEntries_injective (Draft.object.inj hobject).1
    | array => cases hobject
  | array hlength =>
    cases h' with
    | array => rfl

/-! ## Filling the parts of a record -/

/-- The entries went into the parts of a record, from left to right. -/
inductive Filled (r : Record Reader π α) (room : Nat) : List (String × Draft) → π → Prop
  | start : Filled r room [] r.start
  | field {es : List (String × Draft)} {parts : π} {field : Field Reader π} {d : Draft}
      {add : π → π} (before : Filled r room es parts) (hfield : field ∈ r.fields)
      (hread : field.read ⟨d, room⟩ = .ok add) :
      Filled r room (es ++ [(field.name, d)]) (add parts)
  | unknown {es : List (String × Draft)} {parts : π} {key : String}
      (before : Filled r room es parts) (hkey : r.fields.find? (·.name = key) = none) (d : Draft) :
      Filled r room (es ++ [(key, d)]) parts

/-- Of the fields only those under the key change what `get` gets: to what `read` found. -/
inductive Serves (key : String) (read : Reader β) (get : π → Option β) :
    List (Field Reader π) → Prop
  | nil : Serves key read get []
  | own {isSet : π → Bool} {put : β → π → π} {fields : List (Field Reader π)}
      (h : (fun b parts => get (put b parts)) = fun b _ => some b)
      (rest : Serves key read get fields) :
      Serves key read get (⟨key, isSet, put <$> read⟩ :: fields)
  | other {name : String} {isSet : π → Bool} {γ : Type} {put : γ → π → π} {read' : Reader γ}
      {fields : List (Field Reader π)} (hname : decide (name = key) = false)
      (h : (fun c parts => get (put c parts)) = fun _ parts => get parts)
      (rest : Serves key read get fields) :
      Serves key read get (⟨name, isSet, put <$> read'⟩ :: fields)

/-- Under the key the record uses `read`, and `get` gets what it found. -/
structure Slot (r : Record Reader π α) (key : String) (read : Reader β) (get : π → Option β) :
    Prop where
  start : get r.start = none
  known : (r.fields.find? (·.name = key)).isSome = true
  serves : Serves key read get r.fields

section Filling

variable {r : Record Reader π α} {room : Nat} {es : List (String × Draft)} {parts : π}
  {key : String} {read : Reader β} {get : π → Option β} {fields : List (Field Reader π)}
  {field : Field Reader π}

/-- The field under the key sets what `get` gets. -/
theorem Serves.read_own (h : Serves key read get fields) (hfield : field ∈ fields)
    (hname : field.name = key) {p : Place} {add : π → π} (hread : field.read p = .ok add) :
    ∃ b, read p = .ok b ∧ ∀ parts, get (add parts) = some b := by
  induction h with
  | nil => cases hfield
  | own hput _ ih =>
    rcases List.mem_cons.1 hfield with rfl | hfield
    · rcases map_eq_ok.1 hread with ⟨b, hb, rfl⟩
      exact ⟨b, hb, congrFun (congrFun hput b)⟩
    · exact ih hfield
  | other hne _ _ ih =>
    rcases List.mem_cons.1 hfield with rfl | hfield
    · exact absurd hname (of_decide_eq_false hne)
    · exact ih hfield

/-- Fields under other keys leave it. -/
theorem Serves.read_other (h : Serves key read get fields) (hfield : field ∈ fields)
    (hname : field.name ≠ key) {p : Place} {add : π → π} (hread : field.read p = .ok add)
    (parts : π) : get (add parts) = get parts := by
  induction h with
  | nil => cases hfield
  | own _ _ ih =>
    rcases List.mem_cons.1 hfield with rfl | hfield
    · exact absurd rfl hname
    · exact ih hfield
  | other _ hput _ ih =>
    rcases List.mem_cons.1 hfield with rfl | hfield
    · rcases map_eq_ok.1 hread with ⟨c, -, rfl⟩
      exact congrFun (congrFun hput c) parts
    · exact ih hfield

/-- A slot holds what was found in the last entry with its key, and nothing without one. -/
theorem Filled.slot (h : Filled r room es parts) (slot : Slot r key read get) :
    Option.Rel (fun d b => read ⟨d, room⟩ = .ok b) (lastValue? key es) (get parts) := by
  induction h with
  | start =>
    rw [slot.start]
    exact .none
  | @field es parts field d add _ hfield hread ih =>
    rw [lastValue?_append]
    split
    · rename_i hname
      rcases slot.serves.read_own hfield hname hread with ⟨b, hb, hget⟩
      rw [hget]
      exact .some hb
    · rename_i hname
      rwa [slot.serves.read_other hfield hname hread]
  | @unknown es parts k _ hkey d ih =>
    -- A slot is about a known key, so the entry that was passed over has another one.
    have hne : k ≠ key := by
      rintro rfl
      have hknown := slot.known
      rw [hkey] at hknown
      cases hknown
    rwa [lastValue?_append, if_neg hne]

/-- The entries of an object fill a record. -/
theorem Filled.of_foldlM {entries : List (Draft × Draft)}
    (h : entries.foldlM (readField r (⟨·, room⟩)) r.start = .ok parts) :
    ∃ es, entries = Draft.asEntries es ∧ Filled r room es parts := by
  induction entries using List.reverseRecOn generalizing parts with
  | nil => exact ⟨[], rfl, Except.ok.inj h ▸ .start⟩
  | append_singleton entries e ih =>
    rw [List.foldlM_append, bind_eq_ok] at h
    rcases h with ⟨before, hbefore, hlast⟩
    rcases ih hbefore with ⟨es, rfl, hfilled⟩
    rw [List.foldlM_cons, bind_eq_ok] at hlast
    rcases hlast with ⟨_, hentry, hlast⟩
    cases hlast
    rcases e with ⟨k, d⟩
    -- Keys are texts, and a known one names a field that is read.
    rw [readField] at hentry
    split at hentry
    · rename_i key hkey
      cases hkey
      refine ⟨es ++ [(key, d)], asEntries_append es key d, ?_⟩
      split at hentry
      · rename_i field hfind
        split at hentry
        · cases hentry
        · rcases map_eq_ok.1 hentry with ⟨add, hread, rfl⟩
          have hname : field.name = key := by simpa using List.find?_some hfind
          exact hname ▸ hfilled.field (List.mem_of_find?_eq_some hfind) hread
      · rename_i hnone
        split at hentry
        · cases hentry
          exact hfilled.unknown hnone d
        · cases hentry
    · cases hentry

/-- The items of an array fill a record, in the order of its fields. -/
theorem Filled.of_readItems (before : Filled r room es parts) {items left : List Draft}
    {parts' : π} (hfields : fields ⊆ r.fields)
    (h : readItems (⟨·, room⟩) parts fields items = .ok (parts', left)) :
    Filled r room (es ++ (fields.map (·.name)).zip items) parts' ∧
      items.length ≤ fields.length + left.length := by
  induction fields generalizing es parts items with
  | nil =>
    cases h
    rw [List.map_nil, List.zip_nil_left, List.append_nil]
    exact ⟨before, by simp⟩
  | cons field fields ih =>
    cases items with
    | nil =>
      cases h
      rw [List.zip_nil_right, List.append_nil]
      exact ⟨before, by simp⟩
    | cons d items =>
      rw [List.cons_subset] at hfields
      rw [readItems, bind_eq_ok] at h
      rcases h with ⟨add, hread, hmore⟩
      -- The item fills the first field, and the others are filled on top of it.
      rcases ih (before.field hfields.1 hread) hfields.2 hmore with ⟨hfilled, hlength⟩
      rw [List.append_assoc] at hfilled
      refine ⟨hfilled, ?_⟩
      simp only [List.length_cons]
      omega

end Filling

/-! ## Reading containers -/

/-- A list was read: the draft is an array, and each item of it was read. -/
theorem listOf_eq_ok {read : Reader α} {d : Draft} {room : Nat} {as : List α}
    (h : listOf read ⟨d, room⟩ = .ok as) : ∃ room' items, room = room' + 1 ∧
      d = .array items true ∧ List.Forall₂ (fun d a => read ⟨d, room'⟩ = .ok a) items as := by
  cases d with
  | array items closed =>
    rcases bind_eq_ok.1 h with ⟨_, henter, h⟩
    rcases enter_eq_ok henter with ⟨room, rfl, rfl⟩
    rcases bind_eq_ok.1 h with ⟨as', hitems, h⟩
    rcases bind_eq_ok.1 h with ⟨_, hclosing, h⟩
    cases closing_eq_ok hclosing
    cases h
    exact ⟨room, items, rfl, rfl, mapM_eq_ok.1 hitems⟩
  | _ => exact absurd h mismatch_ne_ok

/-- What a table has under a key comes from the last entry with the key. -/
theorem get?_of_foldlM {read : Reader α} {room : Nat} {entries : List (Draft × Draft)}
    {t : Table String α} (h : entries.foldlM (collect read (⟨·, room⟩)) ∅ = .ok t) :
    ∃ es, entries = Draft.asEntries es ∧ ∀ key,
      Option.Rel (fun d a => read ⟨d, room⟩ = .ok a) (lastValue? key es) (t.get? key) := by
  induction entries using List.reverseRecOn generalizing t with
  | nil =>
    cases h
    exact ⟨[], rfl, fun _ => .none⟩
  | append_singleton entries e ih =>
    rw [List.foldlM_append, bind_eq_ok] at h
    rcases h with ⟨before, hbefore, hlast⟩
    rcases ih hbefore with ⟨es, rfl, hes⟩
    rw [List.foldlM_cons, bind_eq_ok] at hlast
    rcases hlast with ⟨_, hentry, hlast⟩
    cases hlast
    rcases e with ⟨k, d⟩
    rw [collect] at hentry
    split at hentry
    · rename_i key hkey
      cases hkey
      rcases map_eq_ok.1 hentry with ⟨a, hread, rfl⟩
      refine ⟨es ++ [(key, d)], asEntries_append es key d, fun key' => ?_⟩
      rw [lastValue?_append, Table.get?_insert]
      split
      · exact .some hread
      · exact hes key'
    · cases hentry

/-- A table was read: the draft is an object, and the last entry of each key was read. -/
theorem tableOf_eq_ok {read : Reader α} {d : Draft} {room : Nat} {t : Table String α}
    (h : tableOf read ⟨d, room⟩ = .ok t) : ∃ room' es, room = room' + 1 ∧
      d = .object (Draft.asEntries es) true ∧
      ∀ key, Option.Rel (fun d a => read ⟨d, room'⟩ = .ok a) (lastValue? key es) (t.get? key) := by
  cases d with
  | object entries closed =>
    -- The reader enters the object and finds it closed; what lies between is one walk over the entries.
    have hopen := h
    rcases bind_eq_ok.1 hopen with ⟨_, henter, hopen⟩
    rcases enter_eq_ok henter with ⟨room, rfl, rfl⟩
    rcases bind_eq_ok.1 hopen with ⟨_, _, hopen⟩
    rcases bind_eq_ok.1 hopen with ⟨_, hclosing, _⟩
    cases closing_eq_ok hclosing
    rw [tableOf_object] at h
    rcases get?_of_foldlM h with ⟨es, rfl, hes⟩
    exact ⟨room, es, rfl, rfl, hes⟩
  | _ => exact absurd h mismatch_ne_ok

theorem finish_eq_ok {finished : Except String α} {fault : String → Fault} {a : α}
    (h : (match finished with
      | .ok a => pure a
      | .error field => .error (fault field) : Result α) = .ok a) : finished = .ok a := by
  cases finished with
  | error field => cases h
  | ok a' => exact congrArg Except.ok (Except.ok.inj h)

/-- A record was read: the entries of the draft fill its parts, and of these it is made. -/
theorem recordOf_eq_ok {source : Source} {r : Record Reader π α} {d : Draft} {room : Nat} {a : α}
    (h : recordOf source r ⟨d, room⟩ = .ok a) : ∃ room' es parts, room = room' + 1 ∧
      Lists (r.fields.map (·.name)) d es ∧ Filled r room' es parts ∧ r.finish parts = .ok a := by
  cases d with
  | object entries closed =>
    rcases bind_eq_ok.1 h with ⟨_, henter, hinside⟩
    rcases enter_eq_ok henter with ⟨room, rfl, rfl⟩
    rcases bind_eq_ok.1 hinside with ⟨parts, hparts, hend⟩
    rcases bind_eq_ok.1 hend with ⟨_, hclosing, hfinish⟩
    cases closing_eq_ok hclosing
    rcases Filled.of_foldlM hparts with ⟨es, rfl, hfilled⟩
    exact ⟨room, es, parts, rfl, .object es, hfilled, finish_eq_ok hfinish⟩
  | array items closed =>
    rcases bind_eq_ok.1 h with ⟨_, henter, hinside⟩
    rcases enter_eq_ok henter with ⟨room, rfl, rfl⟩
    rcases bind_eq_ok.1 hinside with ⟨⟨parts, left⟩, hitems, hend⟩
    rcases Filled.of_readItems .start (List.Subset.refl _) hitems with ⟨hfilled, hlength⟩
    cases left with
    | nil =>
      rcases bind_eq_ok.1 hend with ⟨_, hclosing, hfinish⟩
      cases closing_eq_ok hclosing
      have hfits : items.length ≤ (r.fields.map (·.name)).length := by simpa using hlength
      exact ⟨room, _, parts, rfl, .array hfits, hfilled, finish_eq_ok hfinish⟩
    | cons d left =>
      cases source with
      -- Items are left over: both readers refuse such an array, with different faults.
      | text => cases hend
      | document => cases hend
  | _ => exact absurd h mismatch_ne_ok

/-! ## Reading sorted documents -/

theorem forall₂_trans {R : α → β → Prop} {S : β → γ → Prop} {T : α → γ → Prop}
    (h : ∀ a b c, R a b → S b c → T a c) {as : List α} {bs : List β} {cs : List γ}
    (hab : List.Forall₂ R as bs) (hbc : List.Forall₂ S bs cs) : List.Forall₂ T as cs := by
  induction hab generalizing cs with
  | nil =>
    cases hbc
    exact .nil
  | cons hab _ ih =>
    cases hbc with
    | cons hbc hmore => exact .cons (h _ _ _ hab hbc) (ih hmore)

theorem rel_trans {R : α → β → Prop} {S : β → γ → Prop} {T : α → γ → Prop}
    (h : ∀ a b c, R a b → S b c → T a c) {a : Option α} {b : Option β} {c : Option γ}
    (hab : Option.Rel R a b) (hbc : Option.Rel S b c) : Option.Rel T a c := by
  cases hab with
  | none =>
    cases hbc
    exact .none
  | some hab =>
    cases hbc with
    | some hbc => exact .some (h _ _ _ hab hbc)

/-- The items of an array become documents one by one. -/
theorem sortedItems?_eq_some {room : Nat} {ds ss : List Draft}
    (h : Draft.sortedItems? room ds = some ss) :
    List.Forall₂ (fun d s => d.sorted? room = some s) ds ss := by
  induction ds generalizing ss with
  | nil =>
    rw [Draft.sortedItems?, Option.some.injEq] at h
    exact h ▸ .nil
  | cons d ds ih =>
    rw [Draft.sortedItems?] at h
    rcases Option.bind_eq_some_iff.1 h with ⟨s, hs, hmore⟩
    rcases Option.bind_eq_some_iff.1 hmore with ⟨ss', hss, hcons⟩
    cases hcons
    exact .cons hs (ih hss)

theorem sortedEntries?_eq_some {room : Nat} {entries before sorted : List (Draft × Draft)}
    (h : Draft.sortedEntries? room before entries = some sorted) :
    ∃ es docs : List (String × Draft), entries = Draft.asEntries es ∧
      List.Forall₂ (fun e s => s.1 = e.1 ∧ Draft.sorted? room e.2 = some s.2) es docs := by
  induction entries generalizing before with
  | nil => exact ⟨[], [], rfl, .nil⟩
  | cons e entries ih =>
    rcases e with ⟨k, d⟩
    cases k with
    | text k =>
      cases k with
      | none => simp [Draft.sortedEntries?] at h
      | some key =>
        rw [Draft.sortedEntries?] at h
        rcases Option.bind_eq_some_iff.1 h with ⟨s, hs, hmore⟩
        rcases ih hmore with ⟨es, docs, rfl, hdocs⟩
        exact ⟨(key, d) :: es, (key, s) :: docs, rfl, .cons ⟨rfl, hs⟩ hdocs⟩
    | _ => simp [Draft.sortedEntries?] at h

/-- What becomes of a draft: what is in a container is sorted, objects are sorted by their keys, and
all else stays. -/
inductive SortsTo : Nat → Draft → Draft → Prop
  | null (room : Nat) : SortsTo room .null .null
  | bool (room : Nat) (b : Bool) : SortsTo room (.bool b) (.bool b)
  | number (room : Nat) (n : Number) : SortsTo room (.number (some n)) (.number (some n))
  | text (room : Nat) (s : String) : SortsTo room (.text (some s)) (.text (some s))
  | array {room : Nat} {ds ss : List Draft}
      (items : List.Forall₂ (fun d s => d.sorted? room = some s) ds ss) :
      SortsTo (room + 1) (.array ds true) (.array ss true)
  | object {room : Nat} {es docs : List (String × Draft)}
      (entries : List.Forall₂ (fun e s => s.1 = e.1 ∧ Draft.sorted? room e.2 = some s.2) es docs) :
      SortsTo (room + 1) (.object (Draft.asEntries es) true)
        (.object (Draft.asEntries (sortKeys docs)) true)

/-- A draft becomes the document that sorting makes of it. -/
theorem sortsTo_of_sorted? {d s : Draft} {room : Nat} (h : d.sorted? room = some s) :
    SortsTo room d s := by
  cases d with
  | null =>
    rw [Draft.sorted?] at h
    cases h
    exact .null room
  | bool b =>
    rw [Draft.sorted?] at h
    cases h
    exact .bool room b
  | number n =>
    cases n with
    | none => simp [Draft.sorted?] at h
    | some n =>
      rw [Draft.sorted?] at h
      cases h
      exact .number room n
  | text t =>
    cases t with
    | none => simp [Draft.sorted?] at h
    | some t =>
      rw [Draft.sorted?] at h
      cases h
      exact .text room t
  | broken => simp [Draft.sorted?] at h
  | array ds closed =>
    cases closed with
    | false => simp [Draft.sorted?] at h
    | true =>
      cases room with
      | zero => simp [Draft.sorted?] at h
      | succ room =>
        rw [Draft.sorted?, if_neg (Nat.succ_ne_zero room), Nat.add_one_sub_one] at h
        rcases Option.map_eq_some_iff.1 h with ⟨ss, hss, rfl⟩
        exact .array (sortedItems?_eq_some hss)
  | object entries closed =>
    cases closed with
    | false => simp [Draft.sorted?] at h
    | true =>
      cases room with
      | zero => simp [Draft.sorted?] at h
      | succ room =>
        rw [Draft.sorted?, if_neg (Nat.succ_ne_zero room), Nat.add_one_sub_one] at h
        rcases Option.map_eq_some_iff.1 h with ⟨ss, hss, rfl⟩
        rcases sortedEntries?_eq_some hss with ⟨es, docs, rfl, hdocs⟩
        rw [Draft.sortedEntries?_asEntries hdocs] at hss
        cases hss
        exact .object hdocs

/-- The entries of a document are the documents of the entries of the draft. -/
theorem Lists.of_sorted? {names : List String} {d s : Draft} {room : Nat}
    {docs : List (String × Draft)} (h : Lists names s docs) (hs : d.sorted? (room + 1) = some s) :
    ∃ es, Lists names d es ∧ ∀ key,
      Option.Rel (fun d s => d.sorted? room = some s) (lastValue? key es) (lastValue? key docs) := by
  generalize hroom : room + 1 = depth at hs
  cases sortsTo_of_sorted? hs with
  | @object room' es unsorted hdocs =>
    cases hroom
    cases h.unique (.object (sortKeys unsorted))
    refine ⟨es, .object es, fun key => ?_⟩
    rw [lastValue?_sortKeys]
    exact rel_lastValue? hdocs key
  | @array room' ds ss hds =>
    cases hroom
    cases h with
    | array hlength =>
      refine ⟨names.zip ds, .array (hds.length_eq ▸ hlength), rel_lastValue? ?_⟩
      -- Names go along with the items.
      clear hlength hs
      induction hds generalizing names with
      | nil =>
        rw [List.zip_nil_right]
        exact .nil
      | cons hd _ ih =>
        cases names with
        | nil => exact .nil
        | cons name names => exact .cons ⟨rfl, hd⟩ ih
  | _ => cases h

/-- A list was read from a document: each of its items was, from the document of an item. -/
theorem Loads.list {read : Reader α} {d : Draft} {room : Nat} {as : List α}
    (h : Loads (listOf read) room d as) : ∃ room' ds, room = room' + 1 ∧
      d = .array ds true ∧ List.Forall₂ (Loads read room') ds as := by
  rcases h with ⟨s, hs, hread⟩
  rcases listOf_eq_ok hread with ⟨room, ss, rfl, rfl, has⟩
  cases sortsTo_of_sorted? hs with
  | @array _ ds _ hds =>
    exact ⟨room, ds, rfl, rfl, forall₂_trans (fun _ s _ hs ha => ⟨s, hs, ha⟩) hds has⟩

/-- A table was read from a document: the last entry of each key was. -/
theorem Loads.table {read : Reader α} {d : Draft} {room : Nat} {t : Table String α}
    (h : Loads (tableOf read) room d t) : ∃ room' es, room = room' + 1 ∧
      d = .object (Draft.asEntries es) true ∧
      ∀ key, Option.Rel (Loads read room') (lastValue? key es) (t.get? key) := by
  rcases h with ⟨s, hs, hread⟩
  rcases tableOf_eq_ok hread with ⟨room, docs, rfl, rfl, ht⟩
  generalize hobject : Draft.object (Draft.asEntries docs) true = s at hs
  cases sortsTo_of_sorted? hs with
  | @object _ es unsorted hdocs =>
    cases asEntries_injective (Draft.object.inj hobject).1
    refine ⟨room, es, rfl, rfl, fun key => ?_⟩
    have hkey := ht key
    rw [lastValue?_sortKeys] at hkey
    exact rel_trans (fun _ s _ hs ha => ⟨s, hs, ha⟩) (rel_lastValue? hdocs key) hkey
  | _ => cases hobject

/-- What a record is made of was read from the documents of the entries of the draft. -/
theorem Loads.record {r : Record Reader π α} {d : Draft} {room : Nat} {a : α}
    (h : Loads (recordOf .document r) room d a) : ∃ room' es parts, room = room' + 1 ∧
      Lists (r.fields.map (·.name)) d es ∧ r.finish parts = .ok a ∧
      ∀ {β : Type} {key : String} {read : Reader β} {get : π → Option β}, Slot r key read get →
        Option.Rel (Loads read room') (lastValue? key es) (get parts) := by
  rcases h with ⟨s, hs, hread⟩
  rcases recordOf_eq_ok hread with ⟨room, docs, parts, rfl, hdocs, hfilled, hfinish⟩
  rcases hdocs.of_sorted? hs with ⟨es, hes, hrel⟩
  refine ⟨room, es, parts, rfl, hes, hfinish, ?_⟩
  intro β key read get slot
  exact rel_trans (fun _ s _ hs ha => ⟨s, hs, ha⟩) (hrel key) (hfilled.slot slot)

/-! ## The records of a project -/

section Slots

variable (source : Source)

theorem slot_x : Slot (Shape.position (format source)) "x" (numberOf (.plain ·.toFloat32) "f32") (·.x) :=
  ⟨rfl, rfl, .own rfl (.other rfl rfl .nil)⟩

theorem slot_y : Slot (Shape.position (format source)) "y" (numberOf (.plain ·.toFloat32) "f32") (·.y) :=
  ⟨rfl, rfl, .other rfl rfl (.own rfl .nil)⟩

theorem slot_label : Slot (Shape.nodeData (format source)) "label" (textOf "a string") (·.label) :=
  ⟨rfl, rfl, .own rfl (.other rfl rfl .nil)⟩

theorem slot_properties : Slot (Shape.nodeData (format source)) "properties"
    (tableOf valueOf) (·.properties) :=
  ⟨rfl, rfl, .other rfl rfl (.own rfl .nil)⟩

theorem slot_nodeId : Slot (Shape.node (format source)) "id" (textOf "a string") (·.id) :=
  ⟨rfl, rfl, .own rfl (.other rfl rfl (.other rfl rfl (.other rfl rfl .nil)))⟩

theorem slot_kind : Slot (Shape.node (format source)) "type" (textOf "a string") (·.kind) :=
  ⟨rfl, rfl, .other rfl rfl (.own rfl (.other rfl rfl (.other rfl rfl .nil)))⟩

theorem slot_position : Slot (Shape.node (format source)) "position"
    (recordOf source (Shape.position (format source))) (·.position) :=
  ⟨rfl, rfl, .other rfl rfl (.other rfl rfl (.own rfl (.other rfl rfl .nil)))⟩

theorem slot_data : Slot (Shape.node (format source)) "data"
    (recordOf source (Shape.nodeData (format source))) (·.data) :=
  ⟨rfl, rfl, .other rfl rfl (.other rfl rfl (.other rfl rfl (.own rfl .nil)))⟩

theorem slot_connectionId :
    Slot (Shape.connection (format source)) "id" (textOf "a string") (·.id) :=
  ⟨rfl, rfl, .own rfl (.other rfl rfl (.other rfl rfl (.other rfl rfl (.other rfl rfl .nil))))⟩

theorem slot_fromNode :
    Slot (Shape.connection (format source)) "source" (textOf "a string") (·.fromNode) :=
  ⟨rfl, rfl, .other rfl rfl (.own rfl (.other rfl rfl (.other rfl rfl (.other rfl rfl .nil))))⟩

theorem slot_fromPort :
    Slot (Shape.connection (format source)) "sourceHandle" (textOf "a string") (·.fromPort) :=
  ⟨rfl, rfl, .other rfl rfl (.other rfl rfl (.own rfl (.other rfl rfl (.other rfl rfl .nil))))⟩

theorem slot_toNode :
    Slot (Shape.connection (format source)) "target" (textOf "a string") (·.toNode) :=
  ⟨rfl, rfl, .other rfl rfl (.other rfl rfl (.other rfl rfl (.own rfl (.other rfl rfl .nil))))⟩

theorem slot_toPort :
    Slot (Shape.connection (format source)) "targetHandle" (textOf "a string") (·.toPort) :=
  ⟨rfl, rfl, .other rfl rfl (.other rfl rfl (.other rfl rfl (.other rfl rfl (.own rfl .nil))))⟩

theorem slot_nodes : Slot (Shape.graph (format source)) "nodes"
    (listOf (recordOf source (Shape.node (format source)))) (·.nodes) :=
  ⟨rfl, rfl, .own rfl (.other rfl rfl .nil)⟩

theorem slot_connections : Slot (Shape.graph (format source)) "edges"
    (listOf (recordOf source (Shape.connection (format source)))) (·.connections) :=
  ⟨rfl, rfl, .other rfl rfl (.own rfl .nil)⟩

theorem slot_graph : Slot (Shape.project (format source)) "graph"
    (recordOf source (Shape.graph (format source))) (·.graph) :=
  ⟨rfl, rfl, .other rfl rfl (.other rfl rfl (.other rfl rfl (.own rfl .nil)))⟩

end Slots

/-- A part that a record has to have is there. -/
theorem require_eq_ok {name : String} {a? : Option α} {a : α} (h : require name a? = .ok a) :
    a? = some a := by
  cases a? with
  | none => cases h
  | some b => exact congrArg some (Except.ok.inj h)

/-! ## Whole texts -/

theorem readText_eq_ok {read : Reader α} {text : String} {a : α} (h : readText read text = .ok a) :
    ∃ d, Draft.parse text = (d, true) ∧ read ⟨d, Draft.maxDepth⟩ = .ok a := by
  rw [readText] at h
  rcases hparse : Draft.parse text with ⟨d, complete⟩
  rw [hparse] at h
  rcases bind_eq_ok.1 h with ⟨a', hread, hend⟩
  rcases bind_eq_ok.1 hend with ⟨_, hclosing, hsame⟩
  cases closing_eq_ok hclosing
  cases hsame
  exact ⟨d, rfl, hread⟩

theorem document_eq_ok {text : String} {s : Draft} (h : document text = .ok s) :
    ∃ d, Draft.parse text = (d, true) ∧ d.sorted? Draft.maxDepth = some s := by
  rw [document] at h
  split at h
  · rename_i d hparse
    refine ⟨d, hparse, ?_⟩
    cases hs : d.sorted? Draft.maxDepth with
    | none =>
      rw [hs] at h
      cases h
    | some s' =>
      rw [hs] at h
      exact congrArg some (Except.ok.inj h)
  · cases h

/-- A graph was read from a document: from a project, if it has a field for its graph, and else from
a bare graph. -/
theorem authored_eq_ok {text : String} {g : AuthoredGraph} (h : AuthoredGraph.ofJson text = .ok g) :
    ∃ d s, Draft.parse text = (d, true) ∧ d.sorted? Draft.maxDepth = some s ∧
      if s.hasField "graph" then
        ∃ p : Project, p.graph = g ∧
          Loads (recordOf .document (Shape.project (format .document))) Draft.maxDepth d p
      else Loads (recordOf .document (Shape.graph (format .document))) Draft.maxDepth d g := by
  rw [AuthoredGraph.ofJson] at h
  rcases bind_eq_ok.1 h with ⟨s, hs, hread⟩
  rcases document_eq_ok hs with ⟨d, hparse, hs⟩
  refine ⟨d, s, hparse, hs, ?_⟩
  split at hread
  · rename_i hfield
    rcases bind_eq_ok.1 hread with ⟨p, hp, hsame⟩
    rw [if_pos hfield]
    exact ⟨p, Except.ok.inj hsame, s, hs, hp⟩
  · rename_i hfield
    rw [if_neg hfield]
    exact ⟨s, hs, hread⟩

end GraphScript.Json

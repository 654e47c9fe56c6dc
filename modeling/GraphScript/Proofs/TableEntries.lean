import GraphScript.Table
import Mathlib.Data.List.Nodup

/-!
# TableEntries — looking up, listing and counting the entries of a table

- `get?_eq_some_iff` ties look-up to the list of entries; keys and values follow from it.
- `size_insert` and `size_erase` count entries; an insertion under a new key comes last, and so do many
  (`entries_foldl_insert`).
- `eq_empty_of_get?` recognises the empty table by look-up.
- `Table.map` renames keys and changes values entry by entry; `get?_map`, `insert_map` and `erase_map`
  say that it does not matter whether this is done before or after an operation.
-/

namespace GraphScript

/-! ## Entries -/

namespace Entries

variable {κ ν : Type} [DecidableEq κ]

theorem get?_eq_some_iff {key : κ} {value : ν} {es : List (κ × ν)}
    (nodup : (es.map Prod.fst).Nodup) : get? key es = some value ↔ (key, value) ∈ es := by
  induction es with
  | nil => simp [get?]
  | cons e es ih =>
    rcases e with ⟨k, v⟩
    rw [List.map_cons, List.nodup_cons] at nodup
    by_cases hk : k = key
    · subst hk
      -- The key does not occur again, so the first entry is the only one that counts.
      have hrest : (k, value) ∉ es := fun h => nodup.1 (List.mem_map.2 ⟨_, h, rfl⟩)
      simp [get?, hrest, eq_comm]
    · simp [get?, hk, Ne.symm hk, ih nodup.2]

theorem insert_of_not_mem {key : κ} {value : ν} {es : List (κ × ν)}
    (h : key ∉ es.map Prod.fst) : insert key value es = es ++ [(key, value)] := by
  induction es with
  | nil => rfl
  | cons e es ih =>
    rcases e with ⟨k, v⟩
    rw [List.map_cons, List.mem_cons, not_or] at h
    simp [insert, Ne.symm h.1, ih h.2]

/-- An entry that is there is not entered again. -/
theorem insert_of_get? {key : κ} {value : ν} {es : List (κ × ν)}
    (h : get? key es = some value) : insert key value es = es := by
  induction es with
  | nil => cases h
  | cons e es ih =>
    rcases e with ⟨k, v⟩
    by_cases hk : k = key
    · rw [get?, if_pos hk, Option.some.injEq] at h
      rw [insert, if_pos hk, h]
    · rw [get?, if_neg hk] at h
      rw [insert, if_neg hk, ih h]

theorem length_erase {key : κ} {es : List (κ × ν)} (h : key ∈ es.map Prod.fst) :
    (erase key es).length + 1 = es.length := by
  induction es with
  | nil => simp at h
  | cons e es ih =>
    rcases e with ⟨k, v⟩
    by_cases hk : k = key
    · simp [erase, hk]
    · have hrest : key ∈ es.map Prod.fst := by simpa [Ne.symm hk] using h
      simp [erase, hk, ih hrest]

end Entries

/-! ## Tables -/

namespace Table

variable {κ ν : Type} [DecidableEq κ] {t : Table κ ν} {key : κ} {value : ν}

@[simp] theorem get?_emptyCollection : (∅ : Table κ ν).get? key = none := rfl

theorem get?_eq_some_iff : t.get? key = some value ↔ (key, value) ∈ t.entries :=
  Entries.get?_eq_some_iff t.nodup

theorem mem_keys_iff : key ∈ t.keys ↔ ∃ value, t.get? key = some value := by
  simp [keys, get?_eq_some_iff]

theorem mem_values_iff : value ∈ t.values ↔ ∃ key, t.get? key = some value := by
  simp [values, get?_eq_some_iff]

theorem contains_iff : t.contains key = true ↔ ∃ value, t.get? key = some value := by
  simp [contains, Option.isSome_iff_exists]

theorem contains_eq_false_iff : t.contains key = false ↔ t.get? key = none := by
  simp [contains]

/-- A new entry comes last. -/
theorem entries_insert (h : t.get? key = none) :
    (t.insert key value).entries = t.entries ++ [(key, value)] :=
  Entries.insert_of_not_mem (get?_eq_none_iff.1 h)

theorem insert_of_get? (h : t.get? key = some value) : t.insert key value = t :=
  Table.ext (Entries.insert_of_get? h)

/-- New entries come last, in their order. -/
theorem entries_foldl_insert {es : List (κ × ν)} (hnodup : (es.map Prod.fst).Nodup)
    (hnew : ∀ e ∈ es, t.get? e.1 = none) :
    (es.foldl (fun t e => t.insert e.1 e.2) t).entries = t.entries ++ es := by
  induction es generalizing t with
  | nil => exact (List.append_nil _).symm
  | cons e es ih =>
    rw [List.map_cons, List.nodup_cons] at hnodup
    rw [List.forall_mem_cons] at hnew
    have hrest : ∀ e' ∈ es, (t.insert e.1 e.2).get? e'.1 = none := by
      intro e' he'
      have hne : e.1 ≠ e'.1 := fun heq => hnodup.1 (heq ▸ List.mem_map_of_mem he')
      rw [get?_insert, if_neg hne]
      exact hnew.2 e' he'
    rw [List.foldl_cons, ih hnodup.2 hrest, entries_insert hnew.1, List.append_assoc]
    rfl

theorem size_insert (h : t.get? key = none) : (t.insert key value).size = t.size + 1 := by
  simp [size, entries_insert h]

theorem size_erase (h : t.get? key = some value) : (t.erase key).size + 1 = t.size :=
  Entries.length_erase (mem_keys_iff.2 ⟨value, h⟩)

/-- A table in which nothing is found is empty. -/
theorem eq_empty_of_get? (h : ∀ key, t.get? key = none) : t = ∅ := by
  have hentries : t.entries = [] := by
    refine List.eq_nil_iff_forall_not_mem.2 ?_
    rintro ⟨key, value⟩ hmem
    have := get?_eq_some_iff.2 hmem
    simp [h key] at this
  exact Table.ext hentries

/-- Different keys with different values: no value is listed twice. -/
theorem values_nodup (h : ∀ k k' v, t.get? k = some v → t.get? k' = some v → k = k') :
    t.values.Nodup := by
  -- Keys do not repeat, so pairs do not; it is left to show that values tell pairs apart.
  have hpairs : t.entries.Nodup := List.Nodup.of_map Prod.fst t.nodup
  refine List.Nodup.map_on ?_ hpairs
  rintro ⟨k, v⟩ hk ⟨k', v'⟩ hk' hv
  have hv : v = v' := hv
  subst hv
  have := h k k' v (get?_eq_some_iff.2 hk) (get?_eq_some_iff.2 hk')
  rw [this]

end Table

/-! ## Mapped tables -/

section Map

variable {κ κ' ν ν' : Type} [DecidableEq κ] [DecidableEq κ'] {f : κ → κ'} {g : ν → ν'}

namespace Entries

variable (hf : Function.Injective f) (key : κ) (es : List (κ × ν))

include hf

theorem get?_map : get? (f key) (es.map (Prod.map f g)) = (get? key es).map g := by
  induction es with
  | nil => rfl
  | cons e es ih =>
    rcases e with ⟨k, v⟩
    by_cases hk : k = key
    · simp [get?, hk]
    · have hfk : f k ≠ f key := fun h => hk (hf h)
      simp [get?, hk, hfk, ih]

/-- Renaming keys and changing values goes along with inserting. -/
theorem insert_map (value : ν) :
    insert (f key) (g value) (es.map (Prod.map f g)) =
      (insert key value es).map (Prod.map f g) := by
  induction es with
  | nil => rfl
  | cons e es ih =>
    rcases e with ⟨k, v⟩
    by_cases hk : k = key
    · simp [insert, hk]
    · have hfk : f k ≠ f key := fun h => hk (hf h)
      simp [insert, hk, hfk, ih]

theorem erase_map :
    erase (f key) (es.map (Prod.map f g)) = (erase key es).map (Prod.map f g) := by
  induction es with
  | nil => rfl
  | cons e es ih =>
    rcases e with ⟨k, v⟩
    by_cases hk : k = key
    · simp [erase, hk]
    · have hfk : f k ≠ f key := fun h => hk (hf h)
      simp [erase, hk, hfk, ih]

end Entries

namespace Table

variable (hf : Function.Injective f) (t : Table κ ν) (key : κ)

/-- The table with every key renamed and every value changed, in the same order. -/
def map (f : κ → κ') (hf : Function.Injective f) (g : ν → ν') (t : Table κ ν) : Table κ' ν' where
  entries := t.entries.map (Prod.map f g)
  nodup := by
    have hkeys : (t.entries.map (Prod.map f g)).map Prod.fst = (t.entries.map Prod.fst).map f := by
      rw [List.map_map, List.map_map]
      rfl
    rw [hkeys]
    exact t.nodup.map hf

theorem get?_map : (t.map f hf g).get? (f key) = (t.get? key).map g :=
  Entries.get?_map hf key t.entries

theorem contains_map : (t.map f hf g).contains (f key) = t.contains key := by
  rw [contains, get?_map, Option.isSome_map]
  rfl

theorem insert_map (value : ν) :
    (t.map f hf g).insert (f key) (g value) = (t.insert key value).map f hf g :=
  Table.ext (Entries.insert_map hf key t.entries value)

theorem erase_map : (t.map f hf g).erase (f key) = (t.erase key).map f hf g :=
  Table.ext (Entries.erase_map hf key t.entries)

omit [DecidableEq κ] [DecidableEq κ'] in
theorem values_map : (t.map f hf g).values = t.values.map g := by
  rw [values, values, map, List.map_map, List.map_map]
  rfl

omit [DecidableEq κ] [DecidableEq κ'] in
theorem size_map : (t.map f hf g).size = t.size := List.length_map _

end Table

end Map

end GraphScript

import GraphScript.Json.Draft
import GraphScript.Proofs.TableEntries

/-!
# SortedEntries — objects sorted by their keys

A document keeps the entries of an object in the order of their keys.

- `insertKey` and `sortKeys` — the insertion of entries, whatever they hold;
- `pairwise_sortKeys`, `get?_sortKeys`, `mem_of_mem_sortKeys` — the keys are in order, every key has
  the value that it had, and nothing else is there;
- `sortedEntries?_asEntries` — this is what a draft of sound entries is sorted to.
-/

namespace GraphScript.Json

/-! ## Sorting by keys -/

section Sorting

variable {α β : Type} {key k : String} {a : α} {es : List (String × α)}

/-- Insert under a key, keeping the keys sorted; an entry with the same key is replaced. -/
def insertKey (key : String) (a : α) : List (String × α) → List (String × α)
  | [] => [(key, a)]
  | (k, b) :: rest =>
    if key < k then (key, a) :: (k, b) :: rest
    else if key = k then (key, a) :: rest
    else (k, b) :: insertKey key a rest

/-- The entries, inserted one after the other. -/
def sortKeys (es : List (String × α)) : List (String × α) :=
  es.foldl (fun sorted e => insertKey e.1 e.2 sorted) []

theorem mem_of_mem_insertKey {e : String × α} (h : e ∈ insertKey key a es) :
    e = (key, a) ∨ e ∈ es := by
  induction es with
  | nil => exact Or.inl (List.mem_singleton.1 h)
  | cons e' es ih =>
    rcases e' with ⟨k, b⟩
    rw [insertKey] at h
    split at h
    · exact List.mem_cons.1 h
    · split at h
      · rcases List.mem_cons.1 h with h | h
        · exact Or.inl h
        · exact Or.inr (List.mem_cons_of_mem _ h)
      · rcases List.mem_cons.1 h with h | h
        · exact Or.inr (h ▸ List.mem_cons_self)
        · rcases ih h with h | h
          · exact Or.inl h
          · exact Or.inr (List.mem_cons_of_mem _ h)

/-- An inserted entry is found, and hides none under another key. -/
theorem get?_insertKey : Entries.get? k (insertKey key a es) =
    if key = k then some a else Entries.get? k es := by
  induction es with
  | nil => rfl
  | cons e es ih =>
    rcases e with ⟨k', b⟩
    rw [insertKey]
    split
    · rw [Entries.get?]
    · split
      · rename_i heq
        subst heq
        by_cases hk : key = k
        · simp [Entries.get?, hk]
        · simp [Entries.get?, hk]
      · rename_i hne
        by_cases hk' : k' = k
        · subst hk'
          simp [Entries.get?, hne]
        · simp [Entries.get?, hk', ih]

theorem mem_keys_insertKey :
    k ∈ (insertKey key a es).map Prod.fst ↔ k = key ∨ k ∈ es.map Prod.fst := by
  rw [← not_iff_not, ← Entries.get?_eq_none_iff, get?_insertKey, not_or,
    ← Entries.get?_eq_none_iff]
  by_cases hk : key = k
  · simp [hk]
  · simp [hk, Ne.symm hk]

/-- Inserting keeps the keys sorted. -/
theorem pairwise_insertKey (h : (es.map Prod.fst).Pairwise (· < ·)) :
    ((insertKey key a es).map Prod.fst).Pairwise (· < ·) := by
  induction es with
  | nil => simp [insertKey]
  | cons e es ih =>
    rcases e with ⟨k, b⟩
    rw [List.map_cons, List.pairwise_cons] at h
    rw [insertKey]
    split
    · -- In front of all the others.
      rename_i hlt
      rw [List.map_cons, List.map_cons, List.pairwise_cons, List.pairwise_cons]
      refine ⟨?_, h⟩
      intro k' hk'
      rcases List.mem_cons.1 hk' with rfl | hk'
      · exact hlt
      · exact String.lt_trans hlt (h.1 k' hk')
    · split
      · rename_i heq
        subst heq
        rw [List.map_cons, List.pairwise_cons]
        exact h
      · -- Somewhere behind the first one, which is smaller.
        rename_i hnot hne
        have hlt : k < key := by
          refine Classical.byContradiction fun hge => ?_
          exact hne (String.le_antisymm (String.not_lt.1 hge) (String.not_lt.1 hnot))
        rw [List.map_cons, List.pairwise_cons]
        refine ⟨?_, ih h.2⟩
        intro k' hk'
        rcases List.mem_map.1 hk' with ⟨e, he, rfl⟩
        rcases mem_of_mem_insertKey he with rfl | he
        · exact hlt
        · exact h.1 e.1 (List.mem_map_of_mem he)

theorem insertKey_map (f : α → β) :
    insertKey key (f a) (es.map (Prod.map id f)) = (insertKey key a es).map (Prod.map id f) := by
  induction es with
  | nil => rfl
  | cons e es ih =>
    rcases e with ⟨k, b⟩
    simp only [List.map_cons, Prod.map_apply, id_eq, insertKey, ih]
    split
    · rfl
    · split <;> rfl

/-- Sorting does not look at what is sorted along. -/
theorem sortKeys_map (f : α → β) (es : List (String × α)) :
    sortKeys (es.map (Prod.map id f)) = (sortKeys es).map (Prod.map id f) := by
  have hfold : ∀ before : List (String × α),
      (es.map (Prod.map id f)).foldl (fun sorted e => insertKey e.1 e.2 sorted)
        (before.map (Prod.map id f)) =
      (es.foldl (fun sorted e => insertKey e.1 e.2 sorted) before).map (Prod.map id f) := by
    induction es with
    | nil => exact fun _ => rfl
    | cons e es ih =>
      intro before
      rw [List.map_cons, List.foldl_cons, List.foldl_cons]
      refine Eq.trans ?_ (ih (insertKey e.1 e.2 before))
      rw [← insertKey_map]
      rfl
  exact hfold []

theorem pairwise_sortKeys (es : List (String × α)) :
    ((sortKeys es).map Prod.fst).Pairwise (· < ·) := by
  have hfold : ∀ before : List (String × α), (before.map Prod.fst).Pairwise (· < ·) →
      ((es.foldl (fun sorted e => insertKey e.1 e.2 sorted) before).map Prod.fst).Pairwise
        (· < ·) := by
    induction es with
    | nil => exact fun _ h => h
    | cons e es ih => exact fun before h => ih _ (pairwise_insertKey h)
  exact hfold [] List.Pairwise.nil

theorem nodup_sortKeys (es : List (String × α)) : ((sortKeys es).map Prod.fst).Nodup := by
  refine (pairwise_sortKeys es).imp ?_
  intro a b hlt heq
  exact String.lt_irrefl a (heq ▸ hlt)

theorem mem_of_mem_sortKeys {e : String × α} (h : e ∈ sortKeys es) : e ∈ es := by
  have hfold : ∀ before : List (String × α),
      e ∈ es.foldl (fun sorted e => insertKey e.1 e.2 sorted) before → e ∈ before ∨ e ∈ es := by
    clear h
    induction es with
    | nil => exact fun _ h => Or.inl h
    | cons e' es ih =>
      intro before h
      rcases ih _ h with h | h
      · rcases mem_of_mem_insertKey h with h | h
        · exact Or.inr (h ▸ List.mem_cons_self)
        · exact Or.inl h
      · exact Or.inr (List.mem_cons_of_mem _ h)
  rcases hfold [] h with h | h
  · cases h
  · exact h

theorem mem_keys_sortKeys (h : k ∈ es.map Prod.fst) : k ∈ (sortKeys es).map Prod.fst := by
  have hfold : ∀ before : List (String × α), k ∈ before.map Prod.fst ∨ k ∈ es.map Prod.fst →
      k ∈ (es.foldl (fun sorted e => insertKey e.1 e.2 sorted) before).map Prod.fst := by
    clear h
    induction es with
    | nil => exact fun before h => h.resolve_right List.not_mem_nil
    | cons e es ih =>
      intro before h
      refine ih _ ?_
      rw [List.map_cons, List.mem_cons, or_left_comm, ← or_assoc] at h
      exact h.imp_left mem_keys_insertKey.2
  exact hfold [] (Or.inr h)

/-- Where no key occurs twice, sorting keeps what is found under each key. -/
theorem get?_sortKeys (h : (es.map Prod.fst).Nodup) :
    Entries.get? k (sortKeys es) = Entries.get? k es := by
  have hfold : ∀ before : List (String × α),
      Entries.get? k (es.foldl (fun sorted e => insertKey e.1 e.2 sorted) before) =
        (Entries.get? k es).or (Entries.get? k before) := by
    induction es with
    | nil => exact fun _ => rfl
    | cons e es ih =>
      intro before
      rcases e with ⟨k', b⟩
      rw [List.map_cons, List.nodup_cons] at h
      rw [List.foldl_cons, ih h.2, get?_insertKey, Entries.get?]
      by_cases hk : k' = k
      · subst hk
        simp [Entries.get?_eq_none_iff.2 h.1]
      · simp [hk]
  rw [sortKeys, hfold]
  exact Option.or_none

end Sorting

/-! ## Tables -/

section Tables

variable {α β : Type}

/-- The table with its values changed, in the order of its keys. -/
def sortedTable (f : α → β) (t : Table String α) : Table String β where
  entries := (sortKeys t.entries).map (Prod.map id f)
  nodup := by
    rw [List.map_map]
    exact nodup_sortKeys t.entries

variable (f : α → β) (t : Table String α)

theorem pairwise_sortedTable : (sortedTable f t).keys.Pairwise (· < ·) := by
  rw [Table.keys, sortedTable, List.map_map]
  exact pairwise_sortKeys t.entries

/-- The sorted table has under each key what the table has, changed. -/
theorem get?_sortedTable (key : String) : (sortedTable f t).get? key = (t.get? key).map f := by
  have hmap := Entries.get?_map (g := f) Function.injective_id key (sortKeys t.entries)
  exact hmap.trans (congrArg (Option.map f) (get?_sortKeys t.nodup))

/-- Collecting the sorted entries gives the sorted table. -/
theorem foldl_insert_eq_sortedTable :
    ((sortKeys t.entries).map (Prod.map id f)).foldl (fun t e => t.insert e.1 e.2) ∅ =
      sortedTable f t :=
  Table.ext (Table.entries_foldl_insert (sortedTable f t).nodup fun _ _ => rfl)

end Tables

/-! ## Documents -/

namespace Draft

def asEntries (es : List (String × Draft)) : List (Draft × Draft) :=
  es.map fun e => (.text (some e.1), e.2)

theorem insertSorted_asEntries (key : String) (d : Draft) (es : List (String × Draft)) :
    insertSorted key d (asEntries es) = asEntries (insertKey key d es) := by
  induction es with
  | nil => rfl
  | cons e es ih =>
    rcases e with ⟨k, d'⟩
    have hcons : ∀ e es, asEntries (e :: es) = (.text (some e.1), e.2) :: asEntries es :=
      fun _ _ => rfl
    rw [hcons, insertSorted, insertKey, ih]
    split
    · rfl
    · split <;> rfl

/-- Sound entries are sorted by their keys, whatever they are as documents. -/
theorem sortedEntries?_asEntries {depth : Nat} {es sorted : List (String × Draft)}
    (h : List.Forall₂ (fun e s => s.1 = e.1 ∧ sorted? depth e.2 = some s.2) es sorted) :
    sortedEntries? depth [] (asEntries es) = some (asEntries (sortKeys sorted)) := by
  have hfold : ∀ before : List (String × Draft),
      sortedEntries? depth (asEntries before) (asEntries es) =
        some (asEntries (sorted.foldl (fun sorted e => insertKey e.1 e.2 sorted) before)) := by
    induction h with
    | nil =>
      intro before
      have hnil : asEntries [] = [] := rfl
      rw [hnil, sortedEntries?]
      rfl
    | @cons e s es sorted hes _ ih =>
      intro before
      have hcons : asEntries (e :: es) = (.text (some e.1), e.2) :: asEntries es := rfl
      rw [hcons, sortedEntries?, hes.2, ← hes.1]
      simp only [Option.bind_eq_bind, Option.bind_some, insertSorted_asEntries]
      exact ih _
  exact hfold []

end Draft

end GraphScript.Json

/-!
# Table — look-up tables that remember the order of insertion

- `Table κ ν` lists its entries in the order in which their keys first arrived; no key occurs twice.
- `insert` on a known key changes the value and keeps the place; `erase` closes the gap.
- Main statements: what is found after `insert` and after `erase`, `get?_insert` and `get?_erase`.
-/

namespace GraphScript

/-! ## Entries -/

namespace Entries

variable {κ ν : Type} [DecidableEq κ]

/-- The value of the first entry with the key. -/
def get? (key : κ) : List (κ × ν) → Option ν
  | [] => none
  | (k, v) :: rest => if k = key then some v else get? key rest

/-- Overwrite the entry with the key in place, or add one at the end. -/
def insert (key : κ) (value : ν) : List (κ × ν) → List (κ × ν)
  | [] => [(key, value)]
  | (k, v) :: rest => if k = key then (k, value) :: rest else (k, v) :: insert key value rest

def erase (key : κ) : List (κ × ν) → List (κ × ν)
  | [] => []
  | (k, v) :: rest => if k = key then rest else (k, v) :: erase key rest

theorem mem_keys_insert {key k : κ} {value : ν} {es : List (κ × ν)} :
    k ∈ (insert key value es).map Prod.fst ↔ k = key ∨ k ∈ es.map Prod.fst := by
  induction es with
  | nil => simp [insert]
  | cons e es ih =>
    obtain ⟨k', v'⟩ := e
    by_cases h : k' = key
    · subst h
      simp [insert]
    · simp only [insert, h, if_false, List.map_cons, List.mem_cons, ih]
      constructor
      · rintro (h | h | h) <;> simp [h]
      · rintro (h | h | h) <;> simp [h]

theorem nodup_insert {key : κ} {value : ν} {es : List (κ × ν)} (h : (es.map Prod.fst).Nodup) :
    ((insert key value es).map Prod.fst).Nodup := by
  induction es with
  | nil => simp [insert]
  | cons e es ih =>
    obtain ⟨k', v'⟩ := e
    rw [List.map_cons, List.nodup_cons] at h
    by_cases hk : k' = key
    · subst hk
      simpa [insert] using h
    · simp only [insert, hk, if_false, List.map_cons, List.nodup_cons]
      refine ⟨?_, ih h.2⟩
      rw [mem_keys_insert]
      rintro (h' | h')
      · exact hk h'
      · exact h.1 h'

theorem erase_sublist (key : κ) (es : List (κ × ν)) : (erase key es).Sublist es := by
  induction es with
  | nil => exact List.Sublist.slnil
  | cons e es ih =>
    obtain ⟨k', v'⟩ := e
    by_cases hk : k' = key
    · simp [erase, hk]
    · simpa [erase, hk] using ih

theorem get?_insert (key k : κ) (value : ν) (es : List (κ × ν)) :
    get? k (insert key value es) = if key = k then some value else get? k es := by
  induction es with
  | nil => simp [insert, get?]
  | cons e es ih =>
    obtain ⟨k', v'⟩ := e
    by_cases hk : k' = key
    · subst hk
      by_cases h : k' = k <;> simp [insert, get?, h]
    · by_cases h : k' = k
      · subst h
        simp [insert, get?, hk, Ne.symm hk]
      · simp [insert, get?, hk, h, ih]

theorem get?_eq_none_iff {key : κ} {es : List (κ × ν)} :
    get? key es = none ↔ key ∉ es.map Prod.fst := by
  induction es with
  | nil => simp [get?]
  | cons e es ih =>
    obtain ⟨k', v'⟩ := e
    by_cases h : k' = key
    · simp [get?, h]
    · simp [get?, h, ih, Ne.symm h]

theorem get?_erase {key k : κ} {es : List (κ × ν)} (h : (es.map Prod.fst).Nodup) :
    get? k (erase key es) = if key = k then none else get? k es := by
  induction es with
  | nil => simp [erase, get?]
  | cons e es ih =>
    obtain ⟨k', v'⟩ := e
    rw [List.map_cons, List.nodup_cons] at h
    by_cases hk : k' = key
    · subst hk
      by_cases hk' : k' = k
      · subst hk'
        simpa [erase] using get?_eq_none_iff.2 h.1
      · simp [erase, get?, hk']
    · by_cases hk' : k' = k
      · subst hk'
        simp [erase, get?, hk, Ne.symm hk]
      · simp [erase, get?, hk, hk', ih h.2]

end Entries

/-! ## Tables -/

/-- A finite map that lists its entries in the order in which their keys first arrived. -/
@[ext]
structure Table (κ ν : Type) where
  /-- Keys with their values, oldest key first. -/
  entries : List (κ × ν)
  /-- No key occurs twice. -/
  nodup : (entries.map Prod.fst).Nodup

namespace Table

variable {κ ν : Type}

def empty : Table κ ν := ⟨[], List.nodup_nil⟩

instance : Inhabited (Table κ ν) := ⟨empty⟩
instance : EmptyCollection (Table κ ν) := ⟨empty⟩

/-- Keys, oldest first. -/
def keys (t : Table κ ν) : List κ := t.entries.map Prod.fst

def values (t : Table κ ν) : List ν := t.entries.map Prod.snd

def size (t : Table κ ν) : Nat := t.entries.length

def isEmpty (t : Table κ ν) : Bool := t.entries.isEmpty

variable [DecidableEq κ]

def get? (t : Table κ ν) (key : κ) : Option ν := Entries.get? key t.entries

def contains (t : Table κ ν) (key : κ) : Bool := (t.get? key).isSome

/-- Store the value under the key: a known key keeps its place, a new one comes last. -/
def insert (t : Table κ ν) (key : κ) (value : ν) : Table κ ν :=
  ⟨Entries.insert key value t.entries, Entries.nodup_insert t.nodup⟩

/-- Remove the key; the entries behind it move up. -/
def erase (t : Table κ ν) (key : κ) : Table κ ν :=
  ⟨Entries.erase key t.entries, t.nodup.sublist ((Entries.erase_sublist key t.entries).map _)⟩

def ofList (pairs : List (κ × ν)) : Table κ ν :=
  pairs.foldl (fun t p => t.insert p.1 p.2) empty

theorem get?_insert (t : Table κ ν) (key k : κ) (value : ν) :
    (t.insert key value).get? k = if key = k then some value else t.get? k :=
  Entries.get?_insert key k value t.entries

theorem get?_erase (t : Table κ ν) (key k : κ) :
    (t.erase key).get? k = if key = k then none else t.get? k :=
  Entries.get?_erase t.nodup

theorem get?_eq_none_iff {t : Table κ ν} {key : κ} : t.get? key = none ↔ key ∉ t.keys :=
  Entries.get?_eq_none_iff

end Table

end GraphScript

import GraphScript.Proofs.LoadedValues
import GraphScript.Proofs.SavedGraphs

/-!
# ReloadedGraphs — graphs that were loaded, saved and loaded again

Notations differ in the numbers that they can write: a coordinate may be too large for its 32 bits, and
one of the notations has words for numbers that are not finite. Saved as JSON such numbers are `null`.

- `numberDraft_eq_null` — numbers that are not finite are read as `null`;
- `Loads.field` — a record that is read from a tree has read the tree of each field;
- `isFinite_of_loads_graph` — so a graph that is read from its own tree has finite numbers;
- `Graph.reload_iff_isFinite` — a loaded graph comes back from its saved text exactly if its numbers are
  finite, and it comes back as it was.
-/

namespace GraphScript

open Json

namespace Json

variable {α β π : Type}

/-! ## Numbers that are not finite -/

open Float.Model in
/-- What is not finite is no number or infinite. -/
theorem magnitude_of_not_isFinite {tie : Tie} {reads : Decimal → Bool} {u : UnpackedFloat}
    (h : u.isFinite = false) : (Taken.ofUnpacked tie reads u).magnitude = .notANumber ∨
      (Taken.ofUnpacked tie reads u).magnitude = .infinite := by
  cases u with
  | notANumber => exact Or.inl rfl
  | infinity sign => exact Or.inr rfl
  | zero sign => cases h
  | finite sign mantissa exponent hmantissa => cases h

/-- A layout whose words for such numbers are `null` writes `null`, with no sign. -/
theorem takenText_eq_null {l : Layout} {t : Taken} (hnaN : l.signedNaN = false)
    (hinfinity : l.signedInfinity = false) (hnotANumber : l.notANumber = "null")
    (hinfinite : l.infinite = "null")
    (h : t.magnitude = .notANumber ∨ t.magnitude = .infinite) : l.takenText t = "null" := by
  rcases h with h | h
  · simp [Layout.takenText, h, hnaN, hnotANumber]
  · simp [Layout.takenText, h, hinfinity, hinfinite]

theorem numberDraft_eq_null : numberDraft "null" = .null := rfl

/-- So a 64-bit number that is not finite is saved as `null`. -/
theorem numberDraft_wide {x : Signed Float} (h : x.float.isFinite = false) :
    numberDraft (wide.signedText x) = .null := by
  have htext : wide.signedText x = "null" := by
    cases x with
    | plain x => exact takenText_eq_null rfl rfl rfl rfl (magnitude_of_not_isFinite h)
    | negativeNaN =>
      exact takenText_eq_null (l := wide) (t := ⟨true, .notANumber⟩) rfl rfl rfl rfl (Or.inl rfl)
  rw [htext, numberDraft_eq_null]

/-- The same of a 32-bit number. -/
theorem numberDraft_narrow {x : Signed Float32} (h : x.float32.isFinite = false) :
    numberDraft (narrow.signed32Text x) = .null := by
  have htext : narrow.signed32Text x = "null" := by
    cases x with
    | plain x => exact takenText_eq_null rfl rfl rfl rfl (magnitude_of_not_isFinite h)
    | negativeNaN =>
      exact takenText_eq_null (l := narrow) (t := ⟨true, .notANumber⟩) rfl rfl rfl rfl (Or.inl rfl)
  rw [htext, numberDraft_eq_null]

/-- No number is read from `null`, so a coordinate that is read again was finite. -/
theorem isFinite_of_loads_single {x y : Signed Float32} {room : Nat}
    {convert : Number → Signed Float32} {expected : String}
    (h : Loads (numberOf convert expected) room (numberDraft (narrow.signed32Text x)) y) :
    x.float32.isFinite = true := by
  refine Bool.not_eq_false _ ▸ fun hnot => ?_
  rw [numberDraft_narrow hnot] at h
  rcases h with ⟨s, hs, hread⟩
  cases sortsTo_of_sorted? hs with
  | null => exact mismatch_ne_ok hread

theorem isFinite_of_loads_value {x : Signed Float} {v : Value} {room : Nat}
    (h : Loads valueOf room (numberDraft (wide.signedText x)) v) : x.float.isFinite = true := by
  refine Bool.not_eq_false _ ▸ fun hnot => ?_
  rw [numberDraft_wide hnot] at h
  rcases h with ⟨s, hs, hread⟩
  cases sortsTo_of_sorted? hs with
  | null =>
    rw [valueOf] at hread
    split at hread
    · cases hread
    · cases hread

/-! ## Trees that were read -/

/-- A record that is read from a tree has read the tree of each of its fields. -/
theorem Loads.field {r : Record Reader π α} {room : Nat} {fs : List (String × Tree)} {a : α}
    {key : String} {t : Tree} {read : Reader β} {get : π → Option β}
    (h : Loads (recordOf .document r) room (treeDraft (.record fs)) a) (slot : Slot r key read get)
    (hnodup : (fs.map Prod.fst).Nodup) (ht : (key, t) ∈ fs) :
    ∃ room' b, Loads read room' (treeDraft t) b := by
  rw [treeDraft_record] at h
  rcases h.record with ⟨room', es, parts, -, hes, -, hslots⟩
  cases hes.unique (.object _)
  have hkeys : ((fs.map (Prod.map id treeDraft)).map Prod.fst).Nodup := by
    rw [List.map_map]
    exact hnodup
  have hentry : lastValue? key (fs.map (Prod.map id treeDraft)) = some (treeDraft t) :=
    (lastValue?_eq_some_iff hkeys).2 (List.mem_map.2 ⟨_, ht, rfl⟩)
  have hslot := hslots slot
  rw [hentry] at hslot
  -- The entry is there, so the slot is filled from it.
  generalize get parts = found at hslot
  cases hslot with
  | some hb => exact ⟨room', _, hb⟩

theorem isFinite_of_loads_position {p q : Position} {room : Nat}
    (h : Loads (recordOf .document (Shape.position (format .document))) room
      (treeDraft p.toTree) q) :
    p.x.float32.isFinite = true ∧ p.y.float32.isFinite = true := by
  rcases h.field (slot_x _) (by simp) (.head _) with ⟨_, _, hx⟩
  rcases h.field (slot_y _) (by simp) (.tail _ (.head _)) with ⟨_, _, hy⟩
  rw [treeDraft] at hx hy
  exact ⟨isFinite_of_loads_single hx, isFinite_of_loads_single hy⟩

theorem isFinite_of_loads_properties {t : Table String Value} {u : Table String Value} {room : Nat}
    (h : Loads (tableOf valueOf) room
      (treeDraft (.table (t.entries.map fun e => (e.1, e.2.toTree)))) u)
    {key : String} {x : Signed Float} (hget : t.get? key = some (.number x)) :
    x.float.isFinite = true := by
  rw [treeDraft_table] at h
  rcases h.table with ⟨room', es, -, hobject, hes⟩
  cases asEntries_injective (Draft.object.inj hobject).1
  have hkeys : (((t.entries.map fun e => (e.1, e.2.toTree)).map (Prod.map id treeDraft)).map
      Prod.fst).Nodup := by
    rw [List.map_map, List.map_map]
    exact t.nodup
  -- Keys of a table are distinct, so what it has under the key was written once.
  have hentry : (key, treeDraft (Value.number x).toTree) ∈
      (t.entries.map fun e => (e.1, e.2.toTree)).map (Prod.map id treeDraft) := by
    rw [List.map_map]
    exact List.mem_map.2 ⟨(key, .number x), Table.get?_eq_some_iff.1 hget, rfl⟩
  have hread := hes key
  rw [(lastValue?_eq_some_iff hkeys).2 hentry] at hread
  generalize u.get? key = found at hread
  cases hread with
  | some hb =>
    rw [Value.toTree, treeDraft] at hb
    exact isFinite_of_loads_value hb

/-- A node that is read again had finite numbers only. -/
theorem isFinite_of_loads_node {n m : Node} {room : Nat}
    (h : Loads (recordOf .document (Shape.node (format .document))) room (treeDraft n.toTree) m) :
    n.IsFinite := by
  -- Numbers are in the position and among the properties.
  rcases h.field (slot_position _) (by simp) (.tail _ (.tail _ (.head _))) with
    ⟨_, _, hposition⟩
  rcases h.field (slot_data _) (by simp) (.tail _ (.tail _ (.tail _ (.head _)))) with ⟨_, _, hdata⟩
  rcases hdata.field (slot_properties _) (by simp) (.tail _ (.head _)) with
    ⟨_, _, hproperties⟩
  have hplace := isFinite_of_loads_position hposition
  exact ⟨hplace.1, hplace.2, fun key x hx => isFinite_of_loads_properties hproperties hx⟩

/-- A graph that is read from its own tree has finite numbers only. -/
theorem isFinite_of_loads_graph {g : Graph} {a : AuthoredGraph} {room : Nat}
    (h : Loads (recordOf .document (Shape.graph (format .document))) room (treeDraft g.toTree) a) :
    ∀ n ∈ g.nodes, n.IsFinite := by
  intro n hn
  rcases h.field (slot_nodes _) (by simp) (.head _) with ⟨_, _, hnodes⟩
  rcases hnodes.list with ⟨_, ds, -, hds, hall⟩
  rw [treeDraft, itemDrafts_eq_map, List.map_map] at hds
  cases hds
  rcases exists_rel_of_mem hall (List.mem_map_of_mem hn) with ⟨m, -, hm⟩
  exact isFinite_of_loads_node hm

end Json

/-! ## Trying out numbers -/

/-- The number that a value is, with the sign that files keep. -/
def Value.number? : Value → Option (Signed Float)
  | .number x => some x
  | _ => none

theorem Value.eq_of_number? {v : Value} {x : Signed Float} (h : v.number? = some x) :
    v = .number x := by
  cases v with
  | number y => exact congrArg Value.number (Option.some.inj h)
  | _ => cases h

/-- The numbers of a node can be checked value by value. -/
theorem Node.readsBack_iff {n : Node} : n.ReadsBack ↔
    ReadsBack32 n.position.x ∧ ReadsBack32 n.position.y ∧
      ∀ v ∈ n.data.properties.values, ∀ x ∈ v.number?, Json.ReadsBack x := by
  constructor
  · intro h
    refine ⟨h.x, h.y, fun v hv x hx => ?_⟩
    rcases Table.mem_values_iff.1 hv with ⟨key, hget⟩
    exact h.property? key x (hget.trans (congrArg some (Value.eq_of_number? hx)))
  · rintro ⟨hx, hy, hvalues⟩
    exact ⟨hx, hy, fun key x hget => hvalues _ (Table.mem_values_iff.2 ⟨key, hget⟩) x rfl⟩

instance (n : Node) : Decidable n.ReadsBack := decidable_of_iff' _ Node.readsBack_iff

/-! ## Saved texts -/

/-- The saved text of a graph is that of a bare graph. -/
theorem Graph.loads_of_ofJson_toJson {g : Graph} {a : AuthoredGraph}
    (h : AuthoredGraph.ofJson g.toJson = .ok a) :
    Loads (recordOf .document (Shape.graph (format .document))) Draft.maxDepth (treeDraft g.toTree)
      a := by
  rcases authored_eq_ok h with ⟨d, s, hparse, hs, hread⟩
  cases (parse_pretty g.toTree).symm.trans hparse
  -- It has a field for nodes and one for edges, and none for a graph.
  have hbare : s.hasField "graph" = false := by
    rw [Graph.toTree, treeDraft_record] at hs
    rw [hasField_sorted? hs]
    simp [Draft.hasField, Draft.asEntries]
  rwa [hbare] at hread

/-- A graph with finite numbers that read back is read from its saved text. -/
theorem Graph.ofJson_toJson_of_isFinite {g : Graph} (hfinite : ∀ n ∈ g.nodes, n.IsFinite)
    (hdigits : ∀ n ∈ g.nodes, n.ReadsBack) (supply : IdSupply) :
    Graph.ofJson g.toJson supply = .ok (g.restored, supply) := by
  have hparse := parse_pretty g.toTree
  have hloads := loads_graph hfinite hdigits 122
  rw [Graph.toTree, treeDraft_record] at hparse hloads
  have hauthored : AuthoredGraph.ofJson g.toJson = .ok g.restored.authored :=
    authored_of_graph hparse (by simp [Draft.hasField, Draft.asEntries]) hloads
  rw [Graph.ofJson, hauthored, Except.map, Graph.named_authored]

/-- What was loaded, from either notation, comes back from its saved text exactly if its numbers are
finite, and it comes back as it was: the same nodes in the same order, and the same connections. -/
theorem Graph.reload_iff_isFinite {text : String} {supply rest : IdSupply} {g : Graph}
    (hload : Graph.ofJson text supply = .ok (g, rest) ∨ Graph.ofRon text supply = .ok (g, rest))
    (hdigits : ∀ n ∈ g.nodes, n.ReadsBack) (other : IdSupply) :
    ((∃ reloaded, Graph.ofJson g.toJson other = .ok reloaded) ↔ ∀ n ∈ g.nodes, n.IsFinite) ∧
      ∀ h left, Graph.ofJson g.toJson other = .ok (h, left) →
        List.Forall₂ Node.Same g.nodes h.nodes ∧ h.connections = g.connections ∧ left = other := by
  have hplain : ∀ n ∈ g.nodes, n.IsPlain := by
    rcases hload with hload | hload
    · rcases map_eq_ok.1 hload with ⟨a, ha, hnamed⟩
      cases hnamed
      exact AuthoredGraph.isPlain_ofJson ha
    · rcases map_eq_ok.1 hload with ⟨a, ha, hnamed⟩
      cases hnamed
      exact AuthoredGraph.isPlain_ofRon ha
  -- Any text that is read from the saved graph shows that its numbers are finite.
  have hfinite : ∀ reloaded, Graph.ofJson g.toJson other = .ok reloaded →
      ∀ n ∈ g.nodes, n.IsFinite := by
    intro reloaded hreload
    rcases map_eq_ok.1 hreload with ⟨a, ha, -⟩
    exact isFinite_of_loads_graph (Graph.loads_of_ofJson_toJson ha)
  refine ⟨⟨?_, fun hall => ⟨_, Graph.ofJson_toJson_of_isFinite hall hdigits other⟩⟩, ?_⟩
  · rintro ⟨reloaded, hreload⟩
    exact hfinite reloaded hreload
  · intro h left hreload
    have hrestored := Graph.ofJson_toJson_of_isFinite (hfinite _ hreload) hdigits other
    cases hreload.symm.trans hrestored
    have hsame : List.Forall₂ Node.Same (g.nodes.map id) (g.nodes.map Node.restored) :=
      forall₂_map fun n hn => n.kept_restored.same (hplain n hn)
    rw [List.map_id] at hsame
    exact ⟨hsame, rfl, rfl⟩

/-- A graph with numbers of both kinds, and a property that is given twice. -/
def Graph.sketch : Tree :=
  .record
    [("nodes", .list
      [.record
        [("id", .text "a"), ("type", .text "Lamp"),
          ("position", .list [.single (.plain 0.5), .natural 2]),
          ("data", .record
            [("properties", .table [("watt", .number (.plain 1.5)), ("watt", .natural 2)])])]])]

/-- The sketch is loaded, its numbers read back, and it can be saved and loaded again. -/
theorem Graph.reload_iff_isFinite_sketch :
    ∃ g rest, Graph.ofJson (pretty Graph.sketch) ⟨toString, 0⟩ = .ok (g, rest) ∧
      (∀ n ∈ g.nodes, n.ReadsBack) ∧
      ((∃ reloaded, Graph.ofJson g.toJson ⟨toString, 0⟩ = .ok reloaded) ↔
        ∀ n ∈ g.nodes, n.IsFinite) ∧
      ∀ h left, Graph.ofJson g.toJson ⟨toString, 0⟩ = .ok (h, left) →
        List.Forall₂ Node.Same g.nodes h.nodes ∧ h.connections = g.connections ∧
          left = ⟨toString, 0⟩ := by
  have htext : (AuthoredGraph.ofJson (pretty Graph.sketch)).toOption.any
      (fun a => decide (∀ n ∈ a.nodes, n.ReadsBack)) = true := by
    rw [AuthoredGraph.ofJson, document, parse_pretty]
    decide +kernel
  rcases exists_eq_ok htext with ⟨a, ha, hdigits⟩
  have hload : Graph.ofJson (pretty Graph.sketch) ⟨toString, 0⟩ = .ok (a.named ⟨toString, 0⟩) := by
    rw [Graph.ofJson, ha, Except.map]
  have hdigits : ∀ n ∈ (a.named ⟨toString, 0⟩).1.nodes, n.ReadsBack := of_decide_eq_true hdigits
  exact ⟨_, _, hload, hdigits, Graph.reload_iff_isFinite (Or.inl hload) hdigits ⟨toString, 0⟩⟩

/-- A coordinate that fits into 64 bits, and not into 32. -/
def Graph.farText : String :=
  "\x7b\"nodes\":[\x7b\"id\":\"a\",\"type\":\"k\",\"position\":\x7b\"x\":1e39,\"y\":0\x7d\x7d]\x7d"

/-- There is a text that is loaded, with digits that read back, and the saved text is not. -/
theorem Graph.not_reload_far :
    ∃ g rest, Graph.ofJson Graph.farText ⟨toString, 0⟩ = .ok (g, rest) ∧
      (∀ n ∈ g.nodes, n.ReadsBack) ∧
      ¬ ∃ reloaded, Graph.ofJson g.toJson ⟨toString, 0⟩ = .ok reloaded := by
  have htext : (AuthoredGraph.ofJson Graph.farText).toOption.any (fun a =>
      decide (∀ n ∈ a.nodes, n.ReadsBack) &&
        a.nodes.any fun n => !n.position.x.float32.isFinite) = true := by decide +kernel
  rcases exists_eq_ok htext with ⟨a, ha, hcheck⟩
  rw [Bool.and_eq_true, decide_eq_true_iff, List.any_eq_true] at hcheck
  have hload : Graph.ofJson Graph.farText ⟨toString, 0⟩ = .ok (a.named ⟨toString, 0⟩) := by
    rw [Graph.ofJson, ha, Except.map]
  refine ⟨_, _, hload, hcheck.1, ?_⟩
  rintro ⟨reloaded, hreload⟩
  rcases map_eq_ok.1 hreload with ⟨b, hb, -⟩
  rcases hcheck.2 with ⟨n, hn, hfar⟩
  have hfinite := (isFinite_of_loads_graph (Graph.loads_of_ofJson_toJson hb) n hn).x
  simp [hfinite] at hfar

end GraphScript

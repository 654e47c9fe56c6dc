import GraphScript.Proofs.ReadFields
import GraphScript.Proofs.RonReaders

/-!
# LoadedValues — no file holds an entity

Entities are written as texts, and neither notation has a way of writing them that is read as an
entity again. So what was loaded has none.

- `Format.Rules` — the rules by which one says of the readers of a notation what they make;
  `Rules.graph` — by these rules alone the nodes of a graph are plain;
- `Json.Makes`, `Json.rules` — the rules hold for readers of drafts;
- `Ron.Reader.Makes`, `Ron.Reader.rules` — and for readers that walk through a text, where the rule for
  values has to look at all that may stand where a value may (`makes_value`);
- `AuthoredGraph.isPlain_ofJson`, `AuthoredGraph.isPlain_ofRon` — loaded graphs.
-/

namespace GraphScript

/-! ## Plain values -/

def Value.IsPlain (v : Value) : Prop := v.portType ≠ .entity

theorem Value.isPlain_bool (b : Bool) : (Value.bool b).IsPlain := fun h => nomatch h

theorem Value.isPlain_number (x : Signed Float) : (Value.number x).IsPlain := fun h => nomatch h

theorem Value.isPlain_text (s : String) : (Value.text s).IsPlain := fun h => nomatch h

/-- A plain value is read again as it was. -/
theorem Value.IsPlain.restored {v : Value} (h : v.IsPlain) : v.restored = v := by
  cases v with
  | entity id => exact absurd rfl h
  | _ => rfl

def Node.IsPlain (n : Node) : Prop := ∀ key v, n.property? key = some v → v.IsPlain

/-- What is kept of a plain node is all that it says. -/
theorem Node.Kept.same {n m : Node} (h : n.Kept m) (hplain : n.IsPlain) : n.Same m where
  id := h.id
  kind := h.kind
  label := h.label
  position := h.position
  property? key := by
    rw [h.property?]
    cases hget : n.property? key with
    | none => rfl
    | some v => exact congrArg some (hplain key v hget).restored

/-! ## What the readers of a notation make -/

/-- The rules for saying what readers make, where `Makes r P` says that all that `r` makes has the
property `P`. -/
structure Format.Rules {R : Type → Type} [Functor R] (f : Format R)
    (Makes : {α : Type} → R α → (α → Prop) → Prop) : Prop where
  anything {α : Type} (r : R α) : Makes r fun _ => True
  map {α β : Type} {r : R α} {P : α → Prop} {Q : β → Prop} {g : α → β} (h : Makes r P)
    (hg : ∀ a, P a → Q (g a)) : Makes (g <$> r) Q
  value : Makes f.value Value.IsPlain
  list {α : Type} {r : R α} {P : α → Prop} (h : Makes r P) : Makes (f.list r) fun as => ∀ a ∈ as, P a
  table {α : Type} {r : R α} {P : α → Prop} (h : Makes r P) :
    Makes (f.table r) fun t => ∀ key a, t.get? key = some a → P a
  /-- An invariant of the parts, which every field keeps. -/
  record {π α : Type} {r : Record R π α} {I : π → Prop} {P : α → Prop} (hstart : I r.start)
    (hfields : ∀ field ∈ r.fields, Makes field.read fun add => ∀ parts, I parts → I (add parts))
    (hfinish : ∀ parts a, I parts → r.finish parts = .ok a → P a) : Makes (f.record r) P

namespace Format.Rules

variable {R : Type → Type} [Functor R] {f : Format R}
  {Makes : {α : Type} → R α → (α → Prop) → Prop} (rules : f.Rules Makes)

include rules

/-- A field that leaves the invariant alone. -/
theorem other {α π : Type} {r : R α} {put : α → π → π} {I : π → Prop}
    (h : ∀ a parts, I parts → I (put a parts)) :
    Makes (put <$> r) fun add => ∀ parts, I parts → I (add parts) :=
  rules.map (rules.anything r) fun a _ => h a

/-- Under the rules no entity gets into the properties of a node. -/
theorem nodeData : Makes (f.record (Shape.nodeData f))
    fun d => ∀ key v, d.properties.get? key = some v → v.IsPlain := by
  -- The properties, as far as they were read, are plain.
  let I (parts : Shape.NodeDataParts) : Prop :=
    ∀ t ∈ parts.properties, ∀ key v, t.get? key = some v → v.IsPlain
  have hlabel : ∀ label (parts : Shape.NodeDataParts), I parts →
      I { parts with label := some label } := fun _ _ h => h
  have hproperties : ∀ t : Table String Value, (∀ key v, t.get? key = some v → v.IsPlain) →
      ∀ parts : Shape.NodeDataParts, I parts → I { parts with properties := some t } := by
    intro t ht parts _ t' ht'
    cases ht'
    exact ht
  refine rules.record (I := I) (fun _ ht => nomatch ht) ?_ ?_
  · simp only [Shape.nodeData, List.forall_mem_cons]
    exact ⟨rules.other hlabel, rules.map (rules.table rules.value) hproperties,
      fun _ h => nomatch h⟩
  · intro parts d hparts hfinish key v hv
    cases hfinish
    cases hp : parts.properties with
    | none =>
      rw [hp] at hv
      cases hv
    | some t =>
      rw [hp] at hv
      exact hparts t hp key v hv

/-- So nodes that are read have none. -/
theorem node : Makes (f.record (Shape.node f)) Node.IsPlain := by
  let I (parts : Shape.NodeParts) : Prop :=
    ∀ d ∈ parts.data, ∀ key v, d.properties.get? key = some v → v.IsPlain
  have hdata : ∀ d : NodeData, (∀ key v, d.properties.get? key = some v → v.IsPlain) →
      ∀ parts : Shape.NodeParts, I parts → I { parts with data := some d } := by
    intro d hd parts _ d' hd'
    cases hd'
    exact hd
  refine rules.record (I := I) (fun _ hd => nomatch hd) ?_ ?_
  · simp only [Shape.node, List.forall_mem_cons]
    exact ⟨rules.other fun _ _ h => h, rules.other fun _ _ h => h, rules.other fun _ _ h => h,
      rules.map rules.nodeData hdata, fun _ h => nomatch h⟩
  · intro parts n hparts hfinish key v hv
    rcases Json.bind_eq_ok.1 hfinish with ⟨id, -, hfinish⟩
    rcases Json.bind_eq_ok.1 hfinish with ⟨kind, -, hfinish⟩
    cases hfinish
    cases hp : parts.data with
    | none =>
      simp only [Node.property?, hp] at hv
      cases hv
    | some d =>
      simp only [Node.property?, hp] at hv
      exact hparts d hp key v hv

/-- The nodes of a graph are plain, in whatever notation it is read. -/
theorem graph : Makes (f.record (Shape.graph f)) fun g => ∀ n ∈ g.nodes, n.IsPlain := by
  let I (parts : Shape.GraphParts) : Prop := ∀ ns ∈ parts.nodes, ∀ n ∈ ns, n.IsPlain
  have hnodes : ∀ ns : List Node, (∀ n ∈ ns, n.IsPlain) →
      ∀ parts : Shape.GraphParts, I parts → I { parts with nodes := some ns } := by
    intro ns hns parts _ ns' hns'
    cases hns'
    exact hns
  refine rules.record (I := I) (fun _ h => nomatch h) ?_ ?_
  · simp only [Shape.graph, List.forall_mem_cons]
    exact ⟨rules.map (rules.list rules.node) hnodes, rules.other fun _ _ h => h,
      fun _ h => nomatch h⟩
  · intro parts g hparts hfinish n hn
    cases hfinish
    cases hp : parts.nodes with
    | none =>
      simp only [hp] at hn
      cases hn
    | some ns =>
      simp only [hp] at hn
      exact hparts ns hp n hn

/-- Neither have the nodes of a project. -/
theorem project : Makes (f.record (Shape.project f)) fun p => ∀ n ∈ p.graph.nodes, n.IsPlain := by
  let I (parts : Shape.ProjectParts) : Prop := ∀ g ∈ parts.graph, ∀ n ∈ g.nodes, n.IsPlain
  have hgraph : ∀ g : AuthoredGraph, (∀ n ∈ g.nodes, n.IsPlain) →
      ∀ parts : Shape.ProjectParts, I parts → I { parts with graph := some g } := by
    intro g hg parts _ g' hg'
    cases hg'
    exact hg
  refine rules.record (I := I) (fun _ h => nomatch h) ?_ ?_
  · simp only [Shape.project, List.forall_mem_cons]
    exact ⟨rules.other fun _ _ h => h, rules.other fun _ _ h => h, rules.other fun _ _ h => h,
      rules.map rules.graph hgraph, fun _ h => nomatch h⟩
  · intro parts p hparts hfinish n hn
    rcases Json.bind_eq_ok.1 hfinish with ⟨g, hg, hfinish⟩
    cases hfinish
    exact hparts g (Json.require_eq_ok hg) n hn

end Format.Rules

/-! ## Drafts -/

namespace Json

variable {α π : Type}

/-- All that the reader makes has the property. -/
def Makes (read : Reader α) (P : α → Prop) : Prop := ∀ p a, read p = .ok a → P a

/-- What every field preserves holds of the finished parts of a record. -/
theorem Filled.invariant {r : Record Reader π α} {room : Nat} {es : List (String × Draft)}
    {parts : π} {I : π → Prop} (h : Filled r room es parts) (hstart : I r.start)
    (hfields : ∀ field ∈ r.fields, Makes field.read fun add => ∀ parts, I parts → I (add parts)) :
    I parts := by
  induction h with
  | start => exact hstart
  | field _ hfield hread ih => exact hfields _ hfield _ _ hread _ ih
  | unknown _ _ _ ih => exact ih

/-- From a draft no value is read that is an entity. -/
theorem makes_valueOf : Makes valueOf Value.IsPlain := by
  rintro ⟨d, room⟩ v h
  rw [valueOf] at h
  split at h
  · cases d with
    | bool b =>
      cases h
      exact Value.isPlain_bool b
    | number n =>
      cases n with
      | none => cases h
      | some n =>
        cases h
        exact Value.isPlain_number _
    | text s =>
      cases s with
      | none => cases h
      | some s =>
        cases h
        exact Value.isPlain_text s
    | _ => cases h
  · cases h

/-- The readers of JSON obey the rules. -/
theorem rules (source : Source) : (format source).Rules Makes where
  anything _ _ _ _ := trivial
  map h hg p b hb := by
    rcases map_eq_ok.1 hb with ⟨a, ha, rfl⟩
    exact hg a (h p a ha)
  value := makes_valueOf
  list h p as has a ha := by
    rcases listOf_eq_ok has with ⟨room, ds, -, -, hall⟩
    rcases exists_rel_of_mem (List.Forall₂.flip hall) ha with ⟨d, -, hread⟩
    exact h _ _ hread
  table h p t ht key a ha := by
    rcases tableOf_eq_ok ht with ⟨room, es, -, -, hall⟩
    have hkey := hall key
    rw [ha] at hkey
    generalize lastValue? key es = entry at hkey
    cases hkey with
    | some hread => exact h _ _ hread
  record hstart hfields hfinish p a ha := by
    rcases recordOf_eq_ok ha with ⟨room, es, parts, -, -, hfilled, hparts⟩
    exact hfinish parts a (hfilled.invariant hstart hfields) hparts

end Json

/-! ## Texts -/

namespace Ron

namespace Reader

variable {α β π : Type} {P : α → Prop} {Q : β → Prop}

/-- All that the reader makes has the property. -/
def Makes (r : Reader α) (P : α → Prop) : Prop := ∀ s cs a rest, r s cs = .ok (a, rest) → P a

/-- Readers are put together, and so is what is known of them. -/
theorem Makes.bind {r : Reader α} {k : α → Reader β} (hr : Makes r P)
    (hk : ∀ a, P a → Makes (k a) Q) : Makes (r >>= k) Q := by
  intro s cs b rest h
  rcases Json.bind_eq_ok.1 h with ⟨⟨a, more⟩, ha, hb⟩
  exact hk a (hr s cs a more ha) s more b rest hb

theorem makes_anything (r : Reader α) : Makes r fun _ => True := fun _ _ _ _ _ => trivial

/-- Whatever was read before, the property comes from what is read last. -/
theorem Makes.after {r : Reader α} {k : α → Reader β} (hk : ∀ a, Makes (k a) Q) :
    Makes (r >>= k) Q := (makes_anything r).bind fun a _ => hk a

theorem Makes.pure {a : α} (h : P a) : Makes (pure a) P := by
  intro s cs b rest hb
  cases hb
  exact h

theorem makes_fail (fault : Fault) : Makes (fail fault : Reader α) P := by
  intro s cs a rest h
  cases h

theorem makes_part {split : List Char → Option (α × List Char)}
    (h : ∀ cs a rest, split cs = some (a, rest) → P a) : Makes (part split) P := by
  refine .after fun cs => ?_
  split
  · rename_i a rest hsplit
    exact .after fun _ => .pure (h cs a rest hsplit)
  · exact makes_fail _

theorem Makes.withReader {r : Reader α} (h : Makes r P) (f : Scope → Scope) :
    Makes (MonadWithReaderOf.withReader f r) P := fun s cs => h (f s) cs

theorem Makes.deeper {r : Reader α} (h : Makes r P) : Makes (deeper r) P := by
  refine .after fun s => ?_
  split
  · exact makes_fail _
  · exact h.withReader _

/-! ### Values -/

def IsPlain (passed : Passed) : Prop := ∀ v ∈ passed, v.IsPlain

theorem isPlain_none : IsPlain none := fun _ h => nomatch h

theorem isPlain_some {v : Value} (h : v.IsPlain) : IsPlain (some v) := by
  intro v' hv
  cases hv
  exact h

/-- No word stands for an entity. -/
theorem isPlain_keyword {word : List Char} {passed : Passed} (h : keyword? word = some passed) :
    IsPlain passed := by
  rw [keyword?] at h
  split at h
  · cases h
    exact isPlain_some (Value.isPlain_bool true)
  · cases h
    exact isPlain_some (Value.isPlain_bool false)
  · cases h
    exact isPlain_none
  · split at h
    · cases h
      cases anyNumber? word with
      | none => exact isPlain_none
      | some number => exact isPlain_some (Value.isPlain_number _)
    · cases h

/-- What stands alone is a number, a text, or a value of a word. -/
theorem isPlain_scalar (cs : List Char) (passed : Passed) (rest : List Char)
    (h : scalar? cs = some (passed, rest)) : IsPlain passed := by
  rw [scalar?.eq_def] at h
  split at h
  · rcases Option.map_eq_some_iff.1 h with ⟨_, _, hsame⟩
    cases hsame
    exact isPlain_some (Value.isPlain_text _)
  · rcases Option.map_eq_some_iff.1 h with ⟨_, _, hsame⟩
    cases hsame
    exact isPlain_some (Value.isPlain_text _)
  · rcases Option.map_eq_some_iff.1 h with ⟨_, _, hsame⟩
    cases hsame
    exact isPlain_some (Value.isPlain_number _)
  · rcases Option.map_eq_some_iff.1 h with ⟨⟨bytes, _⟩, _, hsame⟩
    cases hsame
    cases bytes with
    | none => exact isPlain_none
    | some s => exact isPlain_some (Value.isPlain_text s)
  · rcases Option.map_eq_some_iff.1 h with ⟨_, _, hsame⟩
    cases hsame
    exact isPlain_none
  · split at h
    · rcases Option.map_eq_some_iff.1 h with ⟨_, _, hsame⟩
      cases hsame
      exact isPlain_some (Value.isPlain_number _)
    · cases h
  · cases h

section Parts

variable (p : Parts)

theorem makes_enter (r : Reader Unit) : Makes (p.enter r) IsPlain := by
  rw [Parts.enter]
  split
  · exact .after fun _ => .pure isPlain_none
  · exact makes_fail _

theorem makes_present : Makes p.present IsPlain := by
  refine .after fun _ => .after fun here => ?_
  split
  · exact .after fun _ => .after fun _ => .after fun _ => .after fun _ => .after fun _ =>
      .after fun _ => .pure isPlain_none
  · refine .after fun implicit => ?_
    split
    · exact .after fun _ => .pure isPlain_none
    · exact makes_fail _

/-- However its parts are passed over, a value is no entity. -/
theorem makes_value : Makes p.value IsPlain := by
  refine .after fun cs => ?_
  rcases spanChars isIdentifierTail cs with ⟨letters, behind⟩
  simp only
  split
  · rename_i v hkeyword
    exact .after fun _ => .pure (isPlain_keyword hkeyword)
  · split
    · exact .after fun _ => makes_present p
    · split
      · exact .after fun _ => .pure isPlain_none
      · split
        · -- A name is passed over, perhaps with what stands in parentheses behind it.
          refine .after fun _ => .after fun _ => .after fun here => ?_
          split
          · exact makes_enter p _
          · exact .pure isPlain_none
        · exact makes_enter p _
        · exact makes_enter p _
        · exact makes_enter p _
        · exact makes_part isPlain_scalar

end Parts

/-- So no value that is read from a text in RON is an entity. -/
theorem makes_readValue : Makes value Value.IsPlain := by
  have hany : Makes any IsPlain := by
    refine .after fun s => ?_
    rcases s.room with _ | _ | room
    · exact makes_value _
    · exact makes_value _
    · exact makes_value _
  refine hany.bind fun passed hpassed => ?_
  cases passed with
  | none => exact makes_fail _
  | some v => exact .pure (hpassed v rfl)

/-! ### Containers -/

/-- An invariant that every item keeps holds when all items are read. -/
theorem makes_itemsWithin {close : Char} {item : α → Reader α}
    (hitem : ∀ a, P a → Makes (item a) P) (fuel : Nat) (free : Bool) {a : α} (ha : P a) :
    Makes (itemsWithin close item fuel free a) P := by
  induction fuel generalizing free a with
  | zero => exact makes_fail _
  | succ fuel ih =>
    refine .after fun _ => .after fun done => ?_
    split
    · exact .pure ha
    · split
      · exact (hitem a ha).bind fun b hb => .after fun more => ih more hb
      · exact makes_fail _

/-- What each item preserves holds when all items are read. The induction is on the fuel, which bounds
their number. -/
theorem makes_itemsBefore {close : Char} {item : α → Reader α}
    (hitem : ∀ a, P a → Makes (item a) P) {a : α} (ha : P a) :
    Makes (itemsBefore close a item) P :=
  .after fun _ => makes_itemsWithin hitem _ _ ha

theorem makes_items {close : Char} {item : α → Reader α}
    (hitem : ∀ a, P a → Makes (item a) P) {a : α} (ha : P a) : Makes (items close a item) P :=
  (makes_itemsBefore hitem ha).bind fun _ hb => .after fun _ => .pure hb

theorem makes_field {r : Record Reader π α} {I : π → Prop}
    (hfields : ∀ field ∈ r.fields, Makes field.read fun add => ∀ parts, I parts → I (add parts))
    (parts : π) (hparts : I parts) : Makes (field r parts) I := by
  refine .after fun key => ?_
  split
  · rename_i field hfind
    split
    · exact makes_fail _
    · refine .after fun _ => ?_
      exact (hfields field (List.mem_of_find?_eq_some hfind)).deeper.bind fun add hadd =>
        .pure (hadd parts hparts)
  · exact .after fun _ => .after fun _ => .pure hparts

theorem rules : format.Rules Makes where
  anything := makes_anything
  map h hg := by
    rw [map_eq_pure_bind]
    exact h.bind fun a ha => .pure (hg a ha)
  value := makes_readValue
  list h := by
    refine .after fun _ => (makes_items ?_ (fun _ ha => nomatch ha)).deeper
    intro as has
    refine h.deeper.bind fun a ha => .pure ?_
    exact List.forall_mem_append.2 ⟨has, List.forall_mem_singleton.2 ha⟩
  table h := by
    refine .after fun _ => (makes_items ?_ (fun _ _ ha => nomatch ha)).deeper
    intro t ht
    refine .after fun key => .after fun _ => h.deeper.bind fun a ha => .pure ?_
    intro key' a' hget
    rw [Table.get?_insert] at hget
    split at hget
    · exact Option.some.inj hget ▸ ha
    · exact ht key' a' hget
  record hstart hfields hfinish := by
    refine .after fun _ => .after fun _ => ?_
    refine (makes_itemsBefore (makes_field hfields) hstart).deeper.bind fun parts hparts => ?_
    split
    · rename_i a ha
      exact .after fun _ => .pure (hfinish parts a hparts ha)
    · exact makes_fail _

/-- Headers and gaps around a text do not change what is read from it. -/
theorem Makes.document {r : Reader α} (h : Makes r P) : Makes r.document P := by
  refine .after fun _ => .after fun _ => .after fun _ => (h.withReader _).bind fun a ha => ?_
  refine .after fun _ => .after fun cs => ?_
  split
  · exact .pure ha
  · exact makes_fail _

end Reader

theorem readText_eq_ok {α : Type} {r : Reader α} {P : α → Prop} (hr : Reader.Makes r P)
    {text : String} {a : α} (h : readText r text = .ok a) : P a := by
  rw [readText] at h
  split at h
  · rename_i b rest hb
    cases h
    exact hr.document _ _ _ _ hb
  · cases h

end Ron

/-! ## Loaded graphs -/

/-- A graph that was loaded from JSON has no entities among its properties. -/
theorem AuthoredGraph.isPlain_ofJson {text : String} {g : AuthoredGraph}
    (h : AuthoredGraph.ofJson text = .ok g) : ∀ n ∈ g.nodes, n.IsPlain := by
  rcases Json.authored_eq_ok h with ⟨d, s, -, -, hread⟩
  split at hread
  · rcases hread with ⟨p, rfl, _, -, hp⟩
    exact (Json.rules .document).project _ _ hp
  · rcases hread with ⟨_, -, hg⟩
    exact (Json.rules .document).graph _ _ hg

/-- Neither has one that was loaded from RON. -/
theorem AuthoredGraph.isPlain_ofRon {text : String} {g : AuthoredGraph}
    (h : AuthoredGraph.ofRon text = .ok g) : ∀ n ∈ g.nodes, n.IsPlain :=
  Ron.readText_eq_ok Ron.Reader.rules.graph h

end GraphScript

import GraphScript.Proofs.ReadFields
import GraphScript.Proofs.SavedGraphs

/-!
# TwoReaders — projects read in text order and from sorted documents

The one reader walks through the draft of a text and meets keys in their order, some perhaps twice.
The other one walks through the sorted document, where no key is left twice.

- `Agree` — what the two make of one draft is related;
- `agree_list`, `agree_table`, `agree_record` — readers of parts that agree make readers of the whole
  that do; `agree_position` to `agree_graph` — so do the readers of the records of a project;
- `hasField_of_reads` — what is read as a project is not read as a bare graph;
- `Project.graph_agrees` — a text that both readers accept has one graph.
-/

namespace GraphScript

/-- The connection is that of the file, under its id, if it has one there. -/
structure AuthoredConnection.Becomes (a : AuthoredConnection) (c : Connection) : Prop where
  id : ∀ id, a.id = some id → c.id = id
  fromNode : c.fromNode = a.fromNode
  fromPort : c.fromPort = a.fromPort
  toNode : c.toNode = a.toNode
  toPort : c.toPort = a.toPort

/-- A connection that gets its id keeps everything else. -/
theorem AuthoredConnection.becomes_named (a : AuthoredConnection) (supply : IdSupply) :
    a.Becomes (a.named supply).1 where
  id id h := by simp only [named, h]
  fromNode := rfl
  fromPort := rfl
  toNode := rfl
  toPort := rfl

theorem becomes_nameConnections (supply : IdSupply) (cs : List AuthoredConnection) :
    List.Forall₂ AuthoredConnection.Becomes cs (nameConnections supply cs).1 := by
  induction cs generalizing supply with
  | nil => exact .nil
  | cons c cs ih => exact .cons (c.becomes_named supply) (ih _)

namespace Json

variable {α β γ π ρ : Type}

/-! ## Readers that agree -/

/-- What one reader finds in a draft is related to what the other one finds in its document. -/
def Agree (read : Reader α) (read' : Reader β) (R : α → β → Prop) : Prop :=
  ∀ d room a b, read ⟨d, room⟩ = .ok a → Loads read' room d b → R a b

/-- A reader that reads no containers sees the same in both. -/
theorem agree_scalar {read : Reader α}
    (harray : ∀ ds closed room a, read ⟨.array ds closed, room⟩ ≠ .ok a)
    (hobject : ∀ es closed room a, read ⟨.object es closed, room⟩ ≠ .ok a) :
    Agree read read Eq := by
  rintro d room a b ha ⟨s, hs, hb⟩
  cases sortsTo_of_sorted? hs with
  | array => exact absurd ha (harray _ _ _ _)
  | object => exact absurd ha (hobject _ _ _ _)
  | _ => exact Except.ok.inj (ha.symm.trans hb)

theorem agree_text (expected : String) : Agree (textOf expected) (textOf expected) Eq :=
  agree_scalar (fun _ _ _ _ => mismatch_ne_ok) (fun _ _ _ _ => mismatch_ne_ok)

theorem agree_number (convert : Number → α) (expected : String) :
    Agree (numberOf convert expected) (numberOf convert expected) Eq :=
  agree_scalar (fun _ _ _ _ => mismatch_ne_ok) (fun _ _ _ _ => mismatch_ne_ok)

theorem agree_value : Agree valueOf valueOf Eq := by
  refine agree_scalar (fun ds closed room a h => ?_) (fun es closed room a h => ?_)
  · rw [valueOf] at h
    split at h
    · cases h
    · cases h
  · rw [valueOf] at h
    split at h
    · cases h
    · cases h

variable {read : Reader α} {read' : Reader β} {R : α → β → Prop}

/-- Lists that are related to one list are related to each other. -/
theorem forall₂_join {S : γ → α → Prop} {T : γ → β → Prop} (h : ∀ c a b, S c a → T c b → R a b)
    {cs : List γ} {as : List α} {bs : List β} (has : List.Forall₂ S cs as)
    (hbs : List.Forall₂ T cs bs) : List.Forall₂ R as bs :=
  forall₂_trans (fun a c b ha hb => h c a b ha hb) (List.Forall₂.flip has) hbs

theorem rel_join {S : γ → α → Prop} {T : γ → β → Prop} (h : ∀ c a b, S c a → T c b → R a b)
    {c : Option γ} {a : Option α} {b : Option β} (ha : Option.Rel S c a) (hb : Option.Rel T c b) :
    Option.Rel R a b := by
  cases ha with
  | none =>
    cases hb
    exact .none
  | some ha =>
    cases hb with
    | some hb => exact .some (h _ _ _ ha hb)

/-- Lists agree, if their items do. -/
theorem agree_list (h : Agree read read' R) :
    Agree (listOf read) (listOf read') (List.Forall₂ R) := by
  intro d room as bs has hbs
  rcases listOf_eq_ok has with ⟨room, ds, rfl, rfl, hleft⟩
  rcases hbs.list with ⟨_, _, hroom, hds, hright⟩
  cases hroom
  cases hds
  exact forall₂_join (fun d a b => h d room a b) hleft hright

theorem eq_of_rel {a b : Option α} (h : Option.Rel Eq a b) : a = b := by
  cases h with
  | none => rfl
  | some h => rw [h]

/-- Tables agree, if their values do: both readers keep the last entry of each key. -/
theorem agree_table (h : Agree read read' R) : Agree (tableOf read) (tableOf read')
    (fun t t' => ∀ key, Option.Rel R (t.get? key) (t'.get? key)) := by
  intro d room t t' ht ht' key
  rcases tableOf_eq_ok ht with ⟨room, es, rfl, rfl, hes⟩
  rcases ht'.table with ⟨_, es', hroom, hobject, hes'⟩
  cases hroom
  cases asEntries_injective (Draft.object.inj hobject).1
  exact rel_join (fun d a b => h d room a b) (hes key) (hes' key)

/-- Records agree, if what is made of parts that agree slot by slot does. -/
theorem agree_record {r : Record Reader π α} {r' : Record Reader ρ β}
    (names : List String) (hnames : r.fields.map (·.name) = names)
    (hnames' : r'.fields.map (·.name) = names)
    (hfinish : ∀ {parts parts' a b},
      (∀ {δ ε : Type} {key : String} {read : Reader δ} {read' : Reader ε} {get : π → Option δ}
        {get' : ρ → Option ε} {S : δ → ε → Prop}, Slot r key read get → Slot r' key read' get' →
        Agree read read' S → Option.Rel S (get parts) (get' parts')) →
      r.finish parts = .ok a → r'.finish parts' = .ok b → R a b) :
    Agree (recordOf .text r) (recordOf .document r') R := by
  intro d room a b ha hb
  rcases recordOf_eq_ok ha with ⟨room, es, parts, rfl, hes, hfilled, ha⟩
  rcases hb.record with ⟨_, es', parts', hroom, hes', hb, hslots⟩
  cases hroom
  rw [hnames] at hes
  rw [hnames'] at hes'
  -- Both went through the same entries of the draft.
  cases hes.unique hes'
  refine hfinish ?_ ha hb
  intro δ ε key read read' get get' S slot slot' hagree
  exact rel_join (fun d b c => hagree d room b c) (hfilled.slot slot) (hslots slot')

/-! ## The records of a project -/

theorem agree_position : Agree (recordOf .text (Shape.position (format .text)))
    (recordOf .document (Shape.position (format .document))) Eq := by
  refine agree_record ["x", "y"] rfl rfl ?_
  intro parts parts' a b hslots ha hb
  have hx := eq_of_rel (hslots (slot_x _) (slot_x _) (agree_number _ _))
  have hy := eq_of_rel (hslots (slot_y _) (slot_y _) (agree_number _ _))
  cases parts
  cases parts'
  cases hx
  cases hy
  exact Except.ok.inj (ha.symm.trans hb)

def SameData (d d' : NodeData) : Prop :=
  d'.label = d.label ∧ ∀ key, d'.properties.get? key = d.properties.get? key

theorem agree_nodeData : Agree (recordOf .text (Shape.nodeData (format .text)))
    (recordOf .document (Shape.nodeData (format .document))) SameData := by
  refine agree_record ["label", "properties"] rfl rfl ?_
  intro parts parts' a b hslots ha hb
  have hlabel := eq_of_rel (hslots (slot_label _) (slot_label _) (agree_text _))
  have hproperties := hslots (slot_properties _) (slot_properties _) (agree_table agree_value)
  rcases parts with ⟨label, properties⟩
  rcases parts' with ⟨label', properties'⟩
  cases hlabel
  cases ha
  cases hb
  refine ⟨rfl, fun key => ?_⟩
  cases hproperties with
  | none => rfl
  | some h => exact (eq_of_rel (h key)).symm

/-- Both readers find the same node, up to the order of its properties. -/
theorem agree_node : Agree (recordOf .text (Shape.node (format .text)))
    (recordOf .document (Shape.node (format .document))) Node.Same := by
  refine agree_record ["id", "type", "position", "data"] rfl rfl ?_
  intro parts parts' a b hslots ha hb
  have hid := eq_of_rel (hslots (slot_nodeId _) (slot_nodeId _) (agree_text _))
  have hkind := eq_of_rel (hslots (slot_kind _) (slot_kind _) (agree_text _))
  have hposition := eq_of_rel (hslots (slot_position _) (slot_position _) agree_position)
  have hdata := hslots (slot_data _) (slot_data _) agree_nodeData
  -- Where the field is missing, both take the same default.
  have hsame : SameData (parts.data.getD {}) (parts'.data.getD {}) := by
    generalize parts.data = data at hdata
    generalize parts'.data = data' at hdata
    cases hdata with
    | none => exact ⟨rfl, fun _ => rfl⟩
    | some h => exact h
  rcases bind_eq_ok.1 ha with ⟨id, haid, ha⟩
  rcases bind_eq_ok.1 ha with ⟨kind, hakind, ha⟩
  rcases bind_eq_ok.1 hb with ⟨id', hbid, hb⟩
  rcases bind_eq_ok.1 hb with ⟨kind', hbkind, hb⟩
  rw [hid] at haid
  rw [hkind] at hakind
  cases haid.symm.trans hbid
  cases hakind.symm.trans hbkind
  cases ha
  cases hb
  exact ⟨rfl, rfl, hsame.1, congrArg (·.getD {}) hposition.symm, hsame.2⟩

theorem agree_connection : Agree (recordOf .text (Shape.connection (format .text)))
    (recordOf .document (Shape.connection (format .document))) Eq := by
  refine agree_record ["id", "source", "sourceHandle", "target", "targetHandle"] rfl rfl ?_
  intro parts parts' a b hslots ha hb
  have hid := eq_of_rel (hslots (slot_connectionId _) (slot_connectionId _) (agree_text _))
  have hfromNode := eq_of_rel (hslots (slot_fromNode _) (slot_fromNode _) (agree_text _))
  have hfromPort := eq_of_rel (hslots (slot_fromPort _) (slot_fromPort _) (agree_text _))
  have htoNode := eq_of_rel (hslots (slot_toNode _) (slot_toNode _) (agree_text _))
  have htoPort := eq_of_rel (hslots (slot_toPort _) (slot_toPort _) (agree_text _))
  cases parts
  cases parts'
  cases hid
  cases hfromNode
  cases hfromPort
  cases htoNode
  cases htoPort
  exact Except.ok.inj (ha.symm.trans hb)

def SameGraph (g g' : AuthoredGraph) : Prop :=
  List.Forall₂ Node.Same g.nodes g'.nodes ∧ g.connections = g'.connections

/-- So they find the same graph. -/
theorem agree_graph : Agree (recordOf .text (Shape.graph (format .text)))
    (recordOf .document (Shape.graph (format .document))) SameGraph := by
  refine agree_record ["nodes", "edges"] rfl rfl ?_
  intro parts parts' a b hslots ha hb
  have hnodes := hslots (slot_nodes _) (slot_nodes _) (agree_list agree_node)
  have hconnections :=
    hslots (slot_connections _) (slot_connections _) (agree_list agree_connection)
  rw [List.forall₂_eq_eq_eq] at hconnections
  rcases parts with ⟨nodes, connections⟩
  rcases parts' with ⟨nodes', connections'⟩
  cases eq_of_rel hconnections
  cases ha
  cases hb
  refine ⟨?_, rfl⟩
  cases hnodes with
  | none => exact .nil
  | some h => exact h

theorem agree_project : Agree (recordOf .text (Shape.project (format .text)))
    (recordOf .document (Shape.project (format .document)))
    (fun p p' => SameGraph p.graph p'.graph) := by
  refine agree_record ["name", "slug", "description", "graph"] rfl rfl ?_
  intro parts parts' p p' hslots hp hp'
  have hgraph := hslots (slot_graph _) (slot_graph _) agree_graph
  rcases bind_eq_ok.1 hp with ⟨g, hg, hp⟩
  rcases bind_eq_ok.1 hp' with ⟨g', hg', hp'⟩
  cases hp
  cases hp'
  -- Neither lacks its graph, so the slots of both are filled.
  rw [require_eq_ok hg, require_eq_ok hg'] at hgraph
  cases hgraph with
  | some h => exact h

/-! ## Projects and bare graphs -/

/-- A draft that is read as a project has a field for its graph, unless it is an array; an array is
too long for a bare graph then. -/
theorem hasField_of_reads {d : Draft} {room : Nat} {p : Project} {g : AuthoredGraph}
    (hproject : recordOf .text (Shape.project (format .text)) ⟨d, room⟩ = .ok p)
    (hgraph : Loads (recordOf .document (Shape.graph (format .document))) room d g) :
    ∃ entries, d = .object entries true ∧ d.hasField "graph" = true := by
  rcases recordOf_eq_ok hproject with ⟨room, es, parts, rfl, hes, hfilled, hfinish⟩
  rcases hgraph.record with ⟨_, _, _, _, hes', _, _⟩
  -- A project does not lack its graph, so there is an entry for it.
  rcases bind_eq_ok.1 hfinish with ⟨g, hg, -⟩
  have hentry := hfilled.slot (slot_graph .text)
  rw [require_eq_ok hg] at hentry
  generalize hlast : lastValue? "graph" es = entry at hentry
  cases hentry with
  | @some e _ _ =>
    cases hes with
    | object es =>
      refine ⟨_, rfl, ?_⟩
      have hmem : ("graph", e) ∈ es := mem_of_lastValue? hlast
      simp only [Draft.hasField, List.any_eq_true]
      exact ⟨(.text (some "graph"), e), List.mem_map.2 ⟨_, hmem, rfl⟩, decide_eq_true rfl⟩
    | @array items _ =>
      cases hes' with
      | array hshort =>
        -- The graph of a project is its fourth field, and a bare graph has two.
        rcases items with _ | ⟨d, _ | ⟨d', _ | ⟨_, _⟩⟩⟩
        · cases hlast
        · cases hlast
        · cases hlast
        · simp [Shape.graph] at hshort

end Json

/-! ## One text, two readers -/

open Json

/-- A text that is read as a project and, from its sorted document, as a graph has one graph: the
same nodes in the same order, and the same connections, which keep the ids that they have. If those of
the others are drawn from the same supply, they are the same as well. -/
theorem Project.graph_agrees {text : String} {p : Project} {g : Graph} {supply rest : IdSupply}
    (hproject : Project.ofJson text = .ok p)
    (hgraph : Graph.ofJson text supply = .ok (g, rest)) :
    List.Forall₂ Node.Same p.graph.nodes g.nodes ∧
      List.Forall₂ AuthoredConnection.Becomes p.graph.connections g.connections ∧
      p.graph.named supply = ({ g with nodes := p.graph.nodes }, rest) := by
  rcases readText_eq_ok hproject with ⟨d, hparse, hproject⟩
  rcases map_eq_ok.1 hgraph with ⟨a, ha, hnamed⟩
  rcases authored_eq_ok ha with ⟨d', s, hparse', hs, hread⟩
  cases hparse.symm.trans hparse'
  have hsame : SameGraph p.graph a := by
    split at hread
    · rcases hread with ⟨p', rfl, hp'⟩
      exact agree_project _ _ _ _ hproject hp'
    · -- A bare graph would have to lack the field that the project has.
      rename_i hbare
      rcases hasField_of_reads hproject hread with ⟨entries, rfl, hfield⟩
      rw [hasField_sorted? hs] at hbare
      exact absurd hfield hbare
  rcases hsame with ⟨hnodes, hconnections⟩
  have hg : a.nodes = g.nodes ∧ (nameConnections supply a.connections).1 = g.connections ∧
      (nameConnections supply a.connections).2 = rest := by
    cases hnamed
    exact ⟨rfl, rfl, rfl⟩
  refine ⟨hg.1 ▸ hnodes, ?_, ?_⟩
  · rw [← hg.2.1, hconnections]
    exact becomes_nameConnections supply a.connections
  · rw [← hg.2.1, ← hg.2.2, ← hconnections]
    rfl

/-- A project with its graph alone: a node that is an array, a property that is given twice, a field
that means nothing, keys out of order, and a connection without an id. -/
def Project.sketch : Tree :=
  .record
    [("graph", .record
      [("edges", .list
        [.record
          [("target", .text "b"), ("targetHandle", .text "exec"), ("source", .text "a"),
            ("sourceHandle", .text "exec")]]),
       ("nodes", .list
        [.list
          [.text "a", .text "OnStart", .list [.natural 1, .number (.plain 2.5)],
            .table [("properties", .table [("k", .natural 1), ("j", .flag true), ("k", .text "l")])]],
         .record [("type", .text "SetVar"), ("shape", .list []), ("id", .text "b")]])])]

/-- What is read of a node, but for its label and its place: its id, its kind and its properties. -/
def Node.read (n : Node) : NodeId × KindName × List (String × Value) :=
  (n.id, n.kind, n.data.properties.entries)

/-- Both readers find two nodes and a connection.  One finds the properties as they are given, the other
one finds them sorted. -/
theorem Project.graph_agrees_sketch :
    ∃ p g rest, Project.ofJson (pretty Project.sketch) = .ok p ∧
      Graph.ofJson (pretty Project.sketch) ⟨toString, 0⟩ = .ok (g, rest) ∧
      p.graph.nodes.map Node.read =
        [("a", "OnStart", [("k", .text "l"), ("j", .bool true)]), ("b", "SetVar", [])] ∧
      g.nodes.map Node.read =
        [("a", "OnStart", [("j", .bool true), ("k", .text "l")]), ("b", "SetVar", [])] ∧
      g.connections = [⟨"edge_0", "a", "exec", "b", "exec"⟩] ∧
      List.Forall₂ Node.Same p.graph.nodes g.nodes ∧
      List.Forall₂ AuthoredConnection.Becomes p.graph.connections g.connections ∧
      p.graph.named ⟨toString, 0⟩ = ({ g with nodes := p.graph.nodes }, rest) := by
  have hproject : (Project.ofJson (pretty Project.sketch)).toOption.any (fun p =>
      p.graph.nodes.map Node.read =
        [("a", "OnStart", [("k", .text "l"), ("j", .bool true)]), ("b", "SetVar", [])]) = true := by
    rw [Project.ofJson, readText, parse_pretty]
    decide +kernel
  have hgraph : (Graph.ofJson (pretty Project.sketch) ⟨toString, 0⟩).toOption.any (fun r =>
      r.1.nodes.map Node.read =
          [("a", "OnStart", [("j", .bool true), ("k", .text "l")]), ("b", "SetVar", [])] ∧
        r.1.connections = [⟨"edge_0", "a", "exec", "b", "exec"⟩]) = true := by
    rw [Graph.ofJson, AuthoredGraph.ofJson, document, parse_pretty]
    decide +kernel
  rcases exists_eq_ok hproject with ⟨p, hp, hnodes⟩
  rcases exists_eq_ok hgraph with ⟨⟨g, rest⟩, hg, hread⟩
  rcases of_decide_eq_true hread with ⟨hnodes', hconnections⟩
  exact ⟨p, g, rest, hp, hg, of_decide_eq_true hnodes, hnodes', hconnections,
    Project.graph_agrees hp hg⟩

end GraphScript

import GraphScript.File.Graph
import GraphScript.File.Written
import GraphScript.Proofs.JsonLoading

/-!
# RestoredGraphs — graphs are read from what was written for them

- `Graph.restored` — the graph that comes back: entities have become texts, and the properties of a
  node are in the order of their keys. `Node.Kept` says what does not change;
- `Node.IsFinite`, `Node.ReadsBack` — what the numbers of a node have to be for that;
- `loads_value` to `loads_graph` — the reader makes the graph, part by part.
-/

namespace GraphScript

open Json

/-! ## What comes back -/

/-- A value as it is read again. Entities are written as texts. -/
def Value.restored : Value → Value
  | .entity id => .text id
  | v => v

/-- What the author wrote into a node, as it is read again. -/
def NodeData.restored (d : NodeData) : NodeData where
  label := d.label
  properties := sortedTable Value.restored d.properties

def Node.restored (n : Node) : Node := { n with data := n.data.restored }

def Graph.restored (g : Graph) : Graph := { g with nodes := g.nodes.map Node.restored }

/-- All that a node says is said by another one. Properties may have changed places, and entities
have become texts. -/
structure Node.Kept (n m : Node) : Prop where
  id : m.id = n.id
  kind : m.kind = n.kind
  label : m.data.label = n.data.label
  position : m.position = n.position
  property? : ∀ key, m.property? key = (n.property? key).map Value.restored
  sorted : m.data.properties.keys.Pairwise (· < ·)

theorem Node.kept_restored (n : Node) : n.Kept n.restored where
  id := rfl
  kind := rfl
  label := rfl
  position := rfl
  property? := get?_sortedTable Value.restored n.data.properties
  sorted := pairwise_sortedTable Value.restored n.data.properties

/-- Two nodes say the same, their properties perhaps in another order. -/
structure Node.Same (n m : Node) : Prop where
  id : m.id = n.id
  kind : m.kind = n.kind
  label : m.data.label = n.data.label
  position : m.position = n.position
  property? : ∀ key, m.property? key = n.property? key

structure Node.IsFinite (n : Node) : Prop where
  x : n.position.x.float32.isFinite = true
  y : n.position.y.float32.isFinite = true
  property? : ∀ key x, n.property? key = some (.number x) → x.float.isFinite = true

/-- All numbers of a node are read again from their digits. -/
structure Node.ReadsBack (n : Node) : Prop where
  x : Json.ReadsBack32 n.position.x
  y : Json.ReadsBack32 n.position.y
  property? : ∀ key x, n.property? key = some (.number x) → Json.ReadsBack x

/-! ## Connections with ids -/

/-- A connection as a file holds it, with its id. -/
def Connection.authored (c : Connection) : AuthoredConnection :=
  ⟨some c.id, c.fromNode, c.fromPort, c.toNode, c.toPort⟩

def Graph.authored (g : Graph) : AuthoredGraph := ⟨g.nodes, g.connections.map Connection.authored⟩

/-- Connections that have ids keep them, and none is drawn. -/
theorem nameConnections_authored (supply : IdSupply) (cs : List Connection) :
    nameConnections supply (cs.map Connection.authored) = (cs, supply) := by
  induction cs with
  | nil => rfl
  | cons c cs ih =>
    rw [List.map_cons, nameConnections]
    simp only [AuthoredConnection.named, Connection.authored, ih]

/-- A graph as a file holds it is named without drawing an id. -/
theorem Graph.named_authored (g : Graph) (supply : IdSupply) :
    g.authored.named supply = (g, supply) := by
  rw [AuthoredGraph.named, Graph.authored, nameConnections_authored]

namespace Json

/-! ## Nodes -/

/-- A value is read from its own tree, if its number is finite and reads back. -/
theorem loads_value {v : Value} (hfinite : ∀ x, v = .number x → x.float.isFinite = true)
    (hdigits : ∀ x, v = .number x → ReadsBack x) (room : Nat) :
    Loads valueOf room (treeDraft v.toTree) v.restored := by
  cases v with
  | number x => exact loads_number (hfinite x rfl) (hdigits x rfl) room
  | bool b =>
    have hsorted : Draft.sorted? room (.bool b) = some (.bool b) := by rw [Draft.sorted?]
    exact ⟨.bool b, hsorted, by rw [valueOf, Draft.isSound, hsorted]; rfl⟩
  | text s | entity s =>
    have hsorted : Draft.sorted? room (.text (some s)) = some (.text (some s)) := by
      rw [Draft.sorted?]
    exact ⟨.text (some s), hsorted, by rw [valueOf, Draft.isSound, hsorted]; rfl⟩

theorem loads_position {n : Node} (hfinite : n.IsFinite) (hdigits : n.ReadsBack) (room : Nat) :
    Loads (recordOf .document (Shape.position (format .document))) (room + 1)
      (treeDraft n.position.toTree) n.position := by
  have hparts : (sortKeys
      [("x", fun q : Shape.PositionParts => { q with x := some n.position.x }),
       ("y", fun q => { q with y := some n.position.y })]).foldlM
        (takeField (Shape.position (format .document))) {} =
      .ok ⟨some n.position.x, some n.position.y⟩ := by
    simp only [sortKeys, insertKey, List.foldl_cons, List.foldl_nil, String.reduceLT,
      String.reduceEq, reduceIte]
    rfl
  have hx := loads_single hfinite.x hdigits.x "f32" room
  have hy := loads_single hfinite.y hdigits.y "f32" room
  rw [Position.toTree, treeDraft_record]
  exact loads_record (.cons (adds_field rfl rfl hx) (.cons (adds_field rfl rfl hy) .nil)) hparts rfl

/-- The properties are read from their table, which becomes sorted on the way. -/
theorem loads_properties {n : Node} (hfinite : n.IsFinite) (hdigits : n.ReadsBack) (room : Nat) :
    Loads (tableOf valueOf) (room + 1)
      (treeDraft (.table (n.data.properties.entries.map fun e => (e.1, e.2.toTree))))
      n.data.restored.properties := by
  have hvalues : ∀ e ∈ n.data.properties.entries,
      Loads valueOf room (treeDraft e.2.toTree) e.2.restored := by
    rintro ⟨key, v⟩ he
    have hget : n.property? key = some v := Table.get?_eq_some_iff.2 he
    exact loads_value (fun x hv => hfinite.property? key x (hv ▸ hget))
      (fun x hv => hdigits.property? key x (hv ▸ hget)) room
  have htable : treeDraft (.table (n.data.properties.entries.map fun e => (e.1, e.2.toTree))) =
      .object (Draft.asEntries
        (n.data.properties.entries.map (Prod.map id fun v => treeDraft v.toTree))) true := by
    rw [treeDraft_table, List.map_map]
    rfl
  rw [htable]
  exact loads_table (fun v => treeDraft v.toTree) Value.restored hvalues

theorem loads_nodeData {n : Node} (hfinite : n.IsFinite) (hdigits : n.ReadsBack) (room : Nat) :
    Loads (recordOf .document (Shape.nodeData (format .document))) (room + 2)
      (treeDraft n.data.toTree) n.data.restored := by
  have hparts : (sortKeys
      [("label", fun q : Shape.NodeDataParts => { q with label := some n.data.label }),
       ("properties", fun q => { q with properties := some n.data.restored.properties })]).foldlM
        (takeField (Shape.nodeData (format .document))) {} =
      .ok ⟨some n.data.label, some n.data.restored.properties⟩ := by
    simp only [sortKeys, insertKey, List.foldl_cons, List.foldl_nil, String.reduceLT,
      String.reduceEq, reduceIte]
    rfl
  have hlabel := loads_text "a string" (room + 1) n.data.label
  have hproperties := loads_properties hfinite hdigits room
  rw [NodeData.toTree, treeDraft_record]
  exact loads_record
    (.cons (adds_field rfl rfl hlabel) (.cons (adds_field rfl rfl hproperties) .nil)) hparts rfl

/-- A node is read from its own tree. -/
theorem loads_node {n : Node} (hfinite : n.IsFinite) (hdigits : n.ReadsBack) (room : Nat) :
    Loads (recordOf .document (Shape.node (format .document))) (room + 3) (treeDraft n.toTree)
      n.restored := by
  have hparts : (sortKeys
      [("id", fun q : Shape.NodeParts => { q with id := some n.id }),
       ("type", fun q => { q with kind := some n.kind }),
       ("position", fun q => { q with position := some n.position }),
       ("data", fun q => { q with data := some n.data.restored })]).foldlM
        (takeField (Shape.node (format .document))) {} =
      .ok ⟨some n.id, some n.kind, some n.position, some n.data.restored⟩ := by
    simp only [sortKeys, insertKey, List.foldl_cons, List.foldl_nil, String.reduceLT,
      String.reduceEq, reduceIte]
    rfl
  have htext := loads_text "a string" (room + 2)
  have hposition := loads_position hfinite hdigits (room + 1)
  have hdata := loads_nodeData hfinite hdigits room
  rw [Node.toTree, treeDraft_record]
  exact loads_record
    (.cons (adds_field rfl rfl (htext n.id)) (.cons (adds_field rfl rfl (htext n.kind))
      (.cons (adds_field rfl rfl hposition) (.cons (adds_field rfl rfl hdata) .nil)))) hparts rfl

/-! ## Graphs -/

/-- A connection is read from its own tree, with its id. -/
theorem loads_connection (c : Connection) (room : Nat) :
    Loads (recordOf .document (Shape.connection (format .document))) (room + 1) (treeDraft c.toTree)
      c.authored := by
  have hparts : (sortKeys
      [("id", fun q : Shape.ConnectionParts => { q with id := some c.id }),
       ("source", fun q => { q with fromNode := some c.fromNode }),
       ("sourceHandle", fun q => { q with fromPort := some c.fromPort }),
       ("target", fun q => { q with toNode := some c.toNode }),
       ("targetHandle", fun q => { q with toPort := some c.toPort })]).foldlM
        (takeField (Shape.connection (format .document))) {} =
      .ok ⟨some c.id, some c.fromNode, some c.fromPort, some c.toNode, some c.toPort⟩ := by
    simp only [sortKeys, insertKey, List.foldl_cons, List.foldl_nil, String.reduceLT,
      String.reduceEq, reduceIte]
    rfl
  have htext := loads_text "a string" room
  rw [Connection.toTree, treeDraft_record]
  exact loads_record
    (.cons (adds_field rfl rfl (htext c.id)) (.cons (adds_field rfl rfl (htext c.fromNode))
      (.cons (adds_field rfl rfl (htext c.fromPort)) (.cons (adds_field rfl rfl (htext c.toNode))
        (.cons (adds_field rfl rfl (htext c.toPort)) .nil))))) hparts rfl

/-- A graph is read from its own tree. -/
theorem loads_graph {g : Graph} (hfinite : ∀ n ∈ g.nodes, n.IsFinite)
    (hdigits : ∀ n ∈ g.nodes, n.ReadsBack) (room : Nat) :
    Loads (recordOf .document (Shape.graph (format .document))) (room + 5) (treeDraft g.toTree)
      g.restored.authored := by
  have hnodes : Loads (listOf (recordOf .document (Shape.node (format .document)))) (room + 4)
      (treeDraft (.list (g.nodes.map Node.toTree))) g.restored.nodes := by
    refine loads_list ?_
    rw [itemDrafts_eq_map, List.map_map]
    exact forall₂_map fun n hn => loads_node (hfinite n hn) (hdigits n hn) room
  have hconnections : Loads (listOf (recordOf .document (Shape.connection (format .document))))
      (room + 4) (treeDraft (.list (g.connections.map Connection.toTree)))
      (g.connections.map Connection.authored) := by
    refine loads_list ?_
    rw [itemDrafts_eq_map, List.map_map]
    exact forall₂_map fun c _ => loads_connection c (room + 2)
  -- Sorting the keys turns the two fields around, and each sets its own part.
  have hparts : (sortKeys
      [("nodes", fun q : Shape.GraphParts => { q with nodes := some g.restored.nodes }),
       ("edges", fun q =>
         { q with connections := some (g.connections.map Connection.authored) })]).foldlM
        (takeField (Shape.graph (format .document))) {} =
      .ok ⟨some g.restored.nodes, some (g.connections.map Connection.authored)⟩ := by
    simp only [sortKeys, insertKey, List.foldl_cons, List.foldl_nil, String.reduceLT,
      String.reduceEq, reduceIte]
    rfl
  rw [Graph.toTree, treeDraft_record]
  exact loads_record
    (.cons (adds_field rfl rfl hnodes) (.cons (adds_field rfl rfl hconnections) .nil)) hparts rfl

end Json

end GraphScript

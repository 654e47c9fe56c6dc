import GraphScript.Proofs.RestoredGraphs
import GraphScript.Proofs.RonReaders

/-!
# RonGraphs — a graph in RON is read as it was written

- `Graph.reread` — the graph that comes back: entities have become texts, and everything else is in
  its place;
- `printed_record` and its likes — trees are printed in blocks of items;
- `takes_value` to `takes_graph` — the reader takes the text of each part;
- `Graph.ofRon_toRon` — a graph that is saved and loaded is what it was.
-/

namespace GraphScript

/-! ## What comes back -/

def NodeData.reread (d : NodeData) : NodeData where
  label := d.label
  properties := d.properties.map id Function.injective_id Value.restored

def Node.reread (n : Node) : Node := { n with data := n.data.reread }

def Graph.reread (g : Graph) : Graph := { g with nodes := g.nodes.map Node.reread }

/-- All numbers of a node are spelled by the characters that are written for them. -/
structure Node.IsSpelled (n : Node) : Prop where
  x : Ron.Reader.ReadsBack32 n.position.x
  y : Ron.Reader.ReadsBack32 n.position.y
  property? : ∀ key x, n.property? key = some (.number x) → Ron.Reader.ReadsBack x

namespace Ron

open Reader

/-! ## Printed trees -/

def printed (level : Nat) (t : Tree) : List Char := (prettyAt level t).toList

section Trees

variable (level : Nat)

theorem toList_prettyItems (ts : List Tree) : (prettyItems level ts).toList =
    (ts.map (printed level)).flatMap (itemLine level) := by
  induction ts with
  | nil => rfl
  | cons t ts ih => simp [prettyItems, itemLine, printed, String.toList_append, ih]

theorem toList_prettyFields (fs : List (String × Tree)) : (prettyFields level fs).toList =
    (fs.map fun f => fieldText f.1 (printed level f.2)).flatMap (itemLine level) := by
  induction fs with
  | nil => rfl
  | cons f fs ih => simp [prettyFields, itemLine, fieldText, printed, String.toList_append, ih]

theorem toList_prettyEntries (es : List (String × Tree)) : (prettyEntries level es).toList =
    (es.map fun e => entryText e.1 (printed level e.2)).flatMap (itemLine level) := by
  induction es with
  | nil => rfl
  | cons e es ih => simp [prettyEntries, itemLine, entryText, printed, String.toList_append, ih]

/-- A list is printed as a block of its items. -/
theorem printed_list (ts : List Tree) :
    printed level (.list ts) = block level '[' ']' (ts.map (printed (level + 1))) := by
  cases ts with
  | nil => simp [printed, prettyAt, block, body]
  | cons t ts =>
    simp only [printed, prettyAt, String.toList_append, toList_prettyItems]
    simp [block, body, itemLines, printed]

/-- A record is printed as a block of its fields. -/
theorem printed_record (fs : List (String × Tree)) :
    printed level (.record fs) =
      block level '(' ')' (fs.map fun f => fieldText f.1 (printed (level + 1) f.2)) := by
  cases fs with
  | nil => simp [printed, prettyAt, block, body]
  | cons f fs =>
    simp only [printed, prettyAt, String.toList_append, toList_prettyFields]
    simp [block, body, itemLines]

/-- A table is printed as a block of its entries. -/
theorem printed_table (es : List (String × Tree)) :
    printed level (.table es) =
      block level '\x7b' '\x7d' (es.map fun e => entryText e.1 (printed (level + 1) e.2)) := by
  cases es with
  | nil => simp [printed, prettyAt, block, body]
  | cons e es =>
    simp only [printed, prettyAt, String.toList_append, toList_prettyEntries]
    simp [block, body, itemLines]

end Trees

/-! ## Nodes -/

theorem takes_printed_text (room level : Nat) (s : String) :
    Takes text room (printed level (.text s)) s := by
  rw [printed, prettyAt]
  exact takes_text room s

theorem takes_printed_single {x : Signed Float32} (hfinite : x.float32.isFinite = true)
    (hspelled : ReadsBack32 x) (room level : Nat) :
    Takes float32 room (printed level (.single x)) x := by
  rw [printed, prettyAt]
  exact takes_single hfinite hspelled room

/-- A value is read as it is printed, but an entity is read as a text. -/
theorem takes_value {v : Value} (hfinite : ∀ x, v = .number x → x.float.isFinite = true)
    (hspelled : ∀ x, v = .number x → ReadsBack x) (room level : Nat) :
    Takes value room (printed level v.toTree) v.restored := by
  cases v with
  | number x =>
    rw [printed, Value.toTree, prettyAt]
    exact takes_value_number (hfinite x rfl) (hspelled x rfl) room
  | bool b =>
    rw [printed, Value.toTree, prettyAt]
    exact takes_value_flag room b
  | text s =>
    rw [printed, Value.toTree, prettyAt]
    exact takes_value_text room s
  | entity s =>
    rw [printed, Value.toTree, prettyAt]
    exact takes_value_text room s

theorem takes_position {n : Node} (hfinite : n.IsFinite) (hspelled : n.IsSpelled)
    (room level : Nat) :
    Takes (record (Shape.position format)) (room + 2) (printed level n.position.toTree)
      n.position := by
  have hx := takes_printed_single hfinite.x hspelled.x room (level + 1)
  have hy := takes_printed_single hfinite.y hspelled.y room (level + 1)
  have hfields : Collects (field (Shape.position format)) ⟨room + 1, []⟩ {}
      [fieldText "x" (printed (level + 1) (.single n.position.x)),
       fieldText "y" (printed (level + 1) (.single n.position.y))]
      ⟨some n.position.x, some n.position.y⟩ :=
    .field (by decide) rfl rfl rfl hx <|
    .field (by decide) rfl rfl rfl hy <| .nil _
  rw [Position.toTree, printed_record]
  exact takes_record level hfields rfl

/-- The properties are read as they are printed, in their order. -/
theorem takes_properties {n : Node} (hfinite : n.IsFinite) (hspelled : n.IsSpelled)
    (room level : Nat) :
    Takes (table value) (room + 2)
      (printed level (.table (n.data.properties.entries.map fun e => (e.1, e.2.toTree))))
      n.data.reread.properties := by
  have hvalues : ∀ e ∈ n.data.properties.entries,
      Takes value room (printed (level + 1) e.2.toTree) e.2.restored := by
    rintro ⟨key, v⟩ he
    have hget : n.property? key = some v := Table.get?_eq_some_iff.2 he
    exact takes_value (fun x hv => hfinite.property? key x (hv ▸ hget))
      (fun x hv => hspelled.property? key x (hv ▸ hget)) room (level + 1)
  have htable : printed level (.table (n.data.properties.entries.map fun e => (e.1, e.2.toTree))) =
      block level '\x7b' '\x7d'
        (n.data.properties.entries.map fun e => entryText e.1 (printed (level + 1) e.2.toTree)) := by
    rw [printed_table, List.map_map]
    rfl
  have hall := takes_table (t := n.data.properties) level (fun v => printed (level + 1) v.toTree)
    Value.restored hvalues
  rw [htable]
  exact hall

theorem takes_nodeData {n : Node} (hfinite : n.IsFinite) (hspelled : n.IsSpelled)
    (room level : Nat) :
    Takes (record (Shape.nodeData format)) (room + 4) (printed level n.data.toTree)
      n.data.reread := by
  have hlabel := takes_printed_text (room + 2) (level + 1) n.data.label
  have hproperties := takes_properties hfinite hspelled room (level + 1)
  have hfields : Collects (field (Shape.nodeData format)) ⟨room + 3, []⟩ {}
      [fieldText "label" (printed (level + 1) (.text n.data.label)),
       fieldText "properties" (printed (level + 1)
         (.table (n.data.properties.entries.map fun e => (e.1, e.2.toTree))))]
      ⟨some n.data.label, some n.data.reread.properties⟩ :=
    .field (by decide) rfl rfl rfl hlabel <|
    .field (by decide) rfl rfl rfl hproperties <| .nil _
  rw [NodeData.toTree, printed_record]
  exact takes_record level hfields rfl

/-- A node is read as it is printed. -/
theorem takes_node {n : Node} (hfinite : n.IsFinite) (hspelled : n.IsSpelled) (room level : Nat) :
    Takes (record (Shape.node format)) (room + 6) (printed level n.toTree) n.reread := by
  have htext := takes_printed_text (room + 4) (level + 1)
  have hposition := takes_position hfinite hspelled (room + 2) (level + 1)
  have hdata := takes_nodeData hfinite hspelled room (level + 1)
  have hfields : Collects (field (Shape.node format)) ⟨room + 5, []⟩ {}
      [fieldText "id" (printed (level + 1) (.text n.id)),
       fieldText "type" (printed (level + 1) (.text n.kind)),
       fieldText "position" (printed (level + 1) n.position.toTree),
       fieldText "data" (printed (level + 1) n.data.toTree)]
      ⟨some n.id, some n.kind, some n.position, some n.data.reread⟩ :=
    .field (by decide) rfl rfl rfl (htext n.id) <|
    .field (by decide) rfl rfl rfl (htext n.kind) <|
    .field (by decide) rfl rfl rfl hposition <|
    .field (by decide) rfl rfl rfl hdata <| .nil _
  rw [Node.toTree, printed_record]
  exact takes_record level hfields rfl

/-! ## Graphs -/

theorem takes_connection (c : Connection) (room level : Nat) :
    Takes (record (Shape.connection format)) (room + 2) (printed level c.toTree) c.authored := by
  have htext := takes_printed_text room (level + 1)
  have hfields : Collects (field (Shape.connection format)) ⟨room + 1, []⟩ {}
      [fieldText "id" (printed (level + 1) (.text c.id)),
       fieldText "source" (printed (level + 1) (.text c.fromNode)),
       fieldText "sourceHandle" (printed (level + 1) (.text c.fromPort)),
       fieldText "target" (printed (level + 1) (.text c.toNode)),
       fieldText "targetHandle" (printed (level + 1) (.text c.toPort))]
      ⟨some c.id, some c.fromNode, some c.fromPort, some c.toNode, some c.toPort⟩ :=
    .field (by decide) rfl rfl rfl (htext c.id) <|
    .field (by decide) rfl rfl rfl (htext c.fromNode) <|
    .field (by decide) rfl rfl rfl (htext c.fromPort) <|
    .field (by decide) rfl rfl rfl (htext c.toNode) <|
    .field (by decide) rfl rfl rfl (htext c.toPort) <| .nil _
  rw [Connection.toTree, printed_record]
  exact takes_record level hfields rfl

/-- A graph is read as it is printed. -/
theorem takes_graph {g : Graph} (hfinite : ∀ n ∈ g.nodes, n.IsFinite)
    (hspelled : ∀ n ∈ g.nodes, n.IsSpelled) (room level : Nat) :
    Takes (record (Shape.graph format)) (room + 10) (printed level g.toTree)
      g.reread.authored := by
  have hnodes : Takes (list (record (Shape.node format))) (room + 8)
      (printed (level + 1) (.list (g.nodes.map Node.toTree))) g.reread.nodes := by
    rw [printed_list, List.map_map]
    exact takes_list (level + 1) <|
      Json.forall₂_map fun n hn => takes_node (hfinite n hn) (hspelled n hn) room (level + 2)
  have hconnections : Takes (list (record (Shape.connection format))) (room + 8)
      (printed (level + 1) (.list (g.connections.map Connection.toTree)))
      (g.connections.map Connection.authored) := by
    rw [printed_list, List.map_map]
    exact takes_list (level + 1) <|
      Json.forall₂_map fun c _ => takes_connection c (room + 4) (level + 2)
  have hfields : Collects (field (Shape.graph format)) ⟨room + 9, []⟩ {}
      [fieldText "nodes" (printed (level + 1) (.list (g.nodes.map Node.toTree))),
       fieldText "edges" (printed (level + 1) (.list (g.connections.map Connection.toTree)))]
      ⟨some g.reread.nodes, some (g.connections.map Connection.authored)⟩ :=
    .field (by decide) rfl rfl rfl hnodes <|
    .field (by decide) rfl rfl rfl hconnections <| .nil _
  rw [Graph.toTree, printed_record]
  exact takes_record level hfields rfl

end Ron

/-! ## Saving and loading -/

/-- A graph that is saved in RON and loaded again is as it was: its nodes and connections are in their
order, and the properties of each node in theirs. Only entities have become texts. -/
theorem Graph.ofRon_toRon (g : Graph) (supply : IdSupply) (hfinite : ∀ n ∈ g.nodes, n.IsFinite)
    (hspelled : ∀ n ∈ g.nodes, n.IsSpelled) :
    Graph.ofRon g.toRon supply = .ok (g.reread, supply) := by
  -- Graphs are ten levels deep, and there is room for more.
  have htakes := Ron.takes_graph hfinite hspelled 118 0
  have hfront : ∃ more, g.toRon.toList = '(' :: more := by
    have hrecord := Ron.printed_record 0
      [("nodes", .list (g.nodes.map Node.toTree)),
       ("edges", .list (g.connections.map Connection.toTree))]
    exact ⟨_, hrecord⟩
  have hauthored : AuthoredGraph.ofRon g.toRon = .ok g.reread.authored :=
    Ron.Reader.readText_of_takes htakes hfront
  rw [Graph.ofRon, hauthored, Except.map, Graph.named_authored]

/-- Texts that look like numbers, names and quotations, an entity, characters that show nothing of
their own, keys out of order, and ids that repeat. -/
def Graph.riddle : Graph where
  nodes :=
    [{ id := "true"
       kind := "r#\"raw\"#"
       position := ⟨.plain (-0.0), .plain 1e30⟩
       data :=
         { label := "it's \"\\\"\x00\n\u200b"
           properties := (∅ : Table String Value).insert "weight" (.number (.plain (-0.1)))
             |>.insert "None" (.text "1.0") |>.insert "" (.entity "Some(1)")
             |>.insert "lit" (.bool false) } },
     { id := "true", kind := "" }]
  connections := [⟨"e", "true", "//", "/*", ")"⟩]

/-- The riddle comes back from its text. -/
theorem Graph.ofRon_toRon_riddle :
    Graph.ofRon Graph.riddle.toRon ⟨fun _ => "", 0⟩ =
      .ok (Graph.riddle.reread, ⟨fun _ => "", 0⟩) := by
  have hplaces : ∀ n ∈ Graph.riddle.nodes, n.position.x.float32.isFinite = true ∧
      n.position.y.float32.isFinite = true ∧ Ron.Reader.ReadsBack32 n.position.x ∧
      Ron.Reader.ReadsBack32 n.position.y := by decide +kernel
  have hvalues : ∀ n ∈ Graph.riddle.nodes, ∀ v ∈ n.data.properties.values,
      v.portType = .number → v = .number (.plain (-0.1)) := by decide
  have hnumber : ∀ n ∈ Graph.riddle.nodes, ∀ key x, n.property? key = some (.number x) →
      x = .plain (-0.1) := by
    intro n hn key x hx
    exact Value.number.inj (hvalues n hn _ (Table.mem_values_iff.2 ⟨key, hx⟩) rfl)
  have hweight : Ron.Reader.ReadsBack (.plain (-0.1)) := by decide +kernel
  have hfinite : ∀ n ∈ Graph.riddle.nodes, n.IsFinite := by
    intro n hn
    refine ⟨(hplaces n hn).1, (hplaces n hn).2.1, fun key x hx => ?_⟩
    rw [hnumber n hn key x hx]
    decide
  have hspelled : ∀ n ∈ Graph.riddle.nodes, n.IsSpelled := by
    intro n hn
    refine ⟨(hplaces n hn).2.2.1, (hplaces n hn).2.2.2, fun key x hx => ?_⟩
    rw [hnumber n hn key x hx]
    exact hweight
  exact Graph.ofRon_toRon Graph.riddle ⟨fun _ => "", 0⟩ hfinite hspelled

end GraphScript

import GraphScript.Catalogue

/-!
# Wiring — a graph prepared for execution

- A `Wiring` indexes the nodes by id, and the connections by the node that they leave and by the
  node that they enter. The first node under an id counts; connections keep their order.
- `startNodes` are the nodes with which every pass begins.
-/

namespace GraphScript

/-- Connections by the id of a node. -/
abbrev ConnectionIndex := Table NodeId (List Connection)

namespace ConnectionIndex

def add (index : ConnectionIndex) (id : NodeId) (c : Connection) : ConnectionIndex :=
  Table.insert index id ((Table.get? index id).getD [] ++ [c])

def connections (index : ConnectionIndex) (id : NodeId) : List Connection :=
  (Table.get? index id).getD []

end ConnectionIndex

/-- A graph prepared for execution. -/
structure Wiring where
  nodes : Table NodeId Node := ∅
  outgoing : ConnectionIndex := ∅
  incoming : ConnectionIndex := ∅

namespace Wiring

/-- Enter a node, unless its id is taken. -/
def addNode (w : Wiring) (n : Node) : Wiring :=
  if w.nodes.contains n.id then w else { w with nodes := w.nodes.insert n.id n }

/-- Enter a connection at both of its ends. -/
def addConnection (w : Wiring) (c : Connection) : Wiring :=
  { w with outgoing := w.outgoing.add c.fromNode c, incoming := w.incoming.add c.toNode c }

def ofGraph (g : Graph) : Wiring :=
  g.connections.foldl addConnection (g.nodes.foldl addNode {})

def node? (w : Wiring) (id : NodeId) : Option Node := w.nodes.get? id

def connectionsFrom (w : Wiring) (id : NodeId) : List Connection := w.outgoing.connections id

def connectionsTo (w : Wiring) (id : NodeId) : List Connection := w.incoming.connections id

/-- The ids of the nodes with which a pass begins. -/
def startNodes {σ : Type} (w : Wiring) (c : Catalogue σ) : List NodeId :=
  (w.nodes.values.filter fun n => (c.get? n.kind).any Definition.isStart).map (·.id)

end Wiring

end GraphScript

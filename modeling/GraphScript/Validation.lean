import GraphScript.Catalogue

/-!
# Validation — the issues of a graph

- `Graph.issues` reports nodes first, then connections, each in declaration order.
- A repeated node is reported as such and not examined further. A connection with a missing end is
  not examined further, and neither is one between kinds that are not both known.
-/

namespace GraphScript

variable {σ : Type}

/-- The issues of a list of nodes, some ids having been declared before it. -/
def nodeIssues (c : Catalogue σ) (seen : List NodeId) : List Node → List Issue
  | [] => []
  | n :: ns =>
    if n.id ∈ seen then .duplicateNode n.id :: nodeIssues c seen ns
    else
      (if c.contains n.kind then [] else [.unknownKind n.id n.kind])
        ++ nodeIssues c (n.id :: seen) ns

/-- The ends of a connection that no node has. -/
def danglingIssues (g : Graph) (conn : Connection) : List Issue :=
  ([conn.fromNode, conn.toNode].filter fun id => (g.node? id).isNone).map (.dangling conn.id)

/-- The issues of the ports of a connection between two known kinds. -/
def portIssues (source target : Definition σ) (conn : Connection) : List Issue :=
  match source.output? conn.fromPort, target.input? conn.toPort with
  | some p, some q =>
    if p.type.canConnectTo q.type then [] else [.incompatiblePorts conn.id p.type q.type]
  | p, q =>
    (if p.isNone then [.unknownPort conn.id conn.fromNode conn.fromPort] else [])
      ++ (if q.isNone then [.unknownPort conn.id conn.toNode conn.toPort] else [])

/-- The kind of a node of the graph, where both are known. -/
def Graph.definition? (g : Graph) (c : Catalogue σ) (id : NodeId) : Option (Definition σ) :=
  (g.node? id).bind fun n => c.get? n.kind

def connectionIssues (g : Graph) (c : Catalogue σ) (conn : Connection) : List Issue :=
  match danglingIssues g conn with
  | [] =>
    match g.definition? c conn.fromNode, g.definition? c conn.toNode with
    | some source, some target => portIssues source target conn
    | _, _ => []
  | issues => issues

def Graph.issues (g : Graph) (c : Catalogue σ) : List Issue :=
  nodeIssues c [] g.nodes ++ g.connections.flatMap (connectionIssues g c)

end GraphScript

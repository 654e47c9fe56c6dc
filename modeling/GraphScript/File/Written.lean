import GraphScript.File.Shape
import GraphScript.Json.Printer
import GraphScript.Ron.Printer

/-!
# File.Written — graphs as files hold them

- `toTree` gives the written data of each kind; both notations print it.
- `Graph.toJson` and `Graph.toRon` are the saved texts of a graph.
-/

namespace GraphScript

/-- A value; entities are written as texts. -/
def Value.toTree : Value → Tree
  | .bool b => .flag b
  | .number x => .number x
  | .text s => .text s
  | .entity id => .text id

def Position.toTree (p : Position) : Tree := .record [("x", .single p.x), ("y", .single p.y)]

def NodeData.toTree (d : NodeData) : Tree :=
  .record
    [("label", .text d.label),
     ("properties", .table (d.properties.entries.map fun (key, value) => (key, value.toTree)))]

def Node.toTree (n : Node) : Tree :=
  .record
    [("id", .text n.id), ("type", .text n.kind), ("position", n.position.toTree),
     ("data", n.data.toTree)]

def Connection.toTree (c : Connection) : Tree :=
  .record
    [("id", .text c.id), ("source", .text c.fromNode), ("sourceHandle", .text c.fromPort),
     ("target", .text c.toNode), ("targetHandle", .text c.toPort)]

def Graph.toTree (g : Graph) : Tree :=
  .record
    [("nodes", .list (g.nodes.map Node.toTree)),
     ("edges", .list (g.connections.map Connection.toTree))]

def Graph.toJson (g : Graph) : String := Json.pretty g.toTree

def Graph.toRon (g : Graph) : String := Ron.pretty g.toTree

/-- A project, with ids drawn for connections that have none. -/
def Project.toTree (p : Project) (supply : IdSupply) : Tree :=
  .record
    [("name", .text p.name), ("slug", .text p.slug), ("description", .text p.description),
     ("graph", (p.graph.named supply).1.toTree)]

/-- A port; a missing default is left out. -/
def Port.toTree (p : Port) : Tree :=
  .record
    ([("id", .text p.id), ("name", .text p.name), ("port_type", .choice p.type.name)]
      ++ match p.fallback with
        | some v => [("default_value", v.toTree)]
        | none => [])

def ExecutorConfig.toTree (c : ExecutorConfig) : Tree :=
  .record [("pull_policy", .choice c.pullPolicy.name), ("max_depth", .natural c.maxDepth)]

end GraphScript

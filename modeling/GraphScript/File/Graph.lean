import GraphScript.File.Shape
import GraphScript.Json.Format
import GraphScript.Ron.Format

/-!
# File.Graph — reading graphs

- `Graph.ofJson` reads the whole document first and sorts it; a document with a `graph` field is a
  project, any other one a graph.
- `Project.ofJson` reads a project in text order. `Graph.ofRon` reads RON.
-/

namespace GraphScript

/-- Does an object have the field? Only objects have fields. -/
def Json.Draft.hasField (name : String) : Json.Draft → Bool
  | .object entries _ => entries.any fun
    | (.text (some key), _) => key = name
    | _ => false
  | _ => false

/-- A project, read in text order. -/
def Project.ofJson (text : String) : Result Project :=
  let f := Json.format .text
  Json.readText (f.record (Shape.project f)) text

/-- A graph, alone or within its project. -/
def AuthoredGraph.ofJson (text : String) : Result AuthoredGraph := do
  let f := Json.format .document
  let d ← Json.document text
  if d.hasField "graph" then
    let project ← f.record (Shape.project f) ⟨d, Json.Draft.maxDepth⟩
    pure project.graph
  else f.record (Shape.graph f) ⟨d, Json.Draft.maxDepth⟩

def AuthoredGraph.ofRon (text : String) : Except Ron.PlacedFault AuthoredGraph :=
  Ron.readText (Ron.format.record (Shape.graph Ron.format)) text

/-- A graph in JSON, with ids drawn for connections that have none. -/
def Graph.ofJson (text : String) (supply : IdSupply) : Result (Graph × IdSupply) :=
  (AuthoredGraph.ofJson text).map (·.named supply)

def Graph.ofRon (text : String) (supply : IdSupply) :
    Except Ron.PlacedFault (Graph × IdSupply) :=
  (AuthoredGraph.ofRon text).map (·.named supply)

end GraphScript

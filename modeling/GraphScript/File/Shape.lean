import GraphScript.Definition
import GraphScript.Format
import GraphScript.Pass

/-!
# File.Shape — how graphs look in files

- Every kind of data has one shape, over an arbitrary `Format`: a choice of names or a record.
- An `AuthoredGraph` is a graph as a file holds it, where connections may lack ids; `named` draws
  the missing ones.
-/

namespace GraphScript

/-! ## Names -/

/-- Types of ports; control flow goes by two names. -/
def PortType.choice : Choice PortType where
  kind := "PortType"
  options := (PortType.control.name, .control) :: ("exec", .control)
    :: (PortType.all.drop 1).map fun t => (t.name, t)

def Key.choice : Choice Key where
  kind := "Key"
  options := Key.all.map fun k => (k.name, k)

def Category.choice : Choice Category where
  kind := "NodeCategory"
  options := Category.all.map fun c => (c.name, c)

def PullPolicy.name : PullPolicy → String
  | reinvoke => "Reinvoke"
  | memoizePerPass => "MemoizePerPass"

def PullPolicy.choice : Choice PullPolicy where
  kind := "PullPolicy"
  options := [PullPolicy.reinvoke, .memoizePerPass].map fun p => (p.name, p)

/-! ## Authored graphs -/

/-- A connection as a file holds it. -/
structure AuthoredConnection where
  id : Option ConnectionId
  fromNode : NodeId
  fromPort : PortId
  toNode : NodeId
  toPort : PortId
  deriving DecidableEq

/-- The connection with an id, drawn if the file has none. -/
def AuthoredConnection.named (c : AuthoredConnection) (supply : IdSupply) : Connection × IdSupply :=
  let (id, supply) := match c.id with
    | some id => (id, supply)
    | none => supply.draw "edge"
  (⟨id, c.fromNode, c.fromPort, c.toNode, c.toPort⟩, supply)

structure AuthoredGraph where
  nodes : List Node := []
  connections : List AuthoredConnection := []

/-- Connections with ids, drawn in their order. -/
def nameConnections (supply : IdSupply) : List AuthoredConnection → List Connection × IdSupply
  | [] => ([], supply)
  | c :: cs =>
    let (c, supply) := c.named supply
    let (cs, supply) := nameConnections supply cs
    (c :: cs, supply)

def AuthoredGraph.named (g : AuthoredGraph) (supply : IdSupply) : Graph × IdSupply :=
  let (connections, supply) := nameConnections supply g.connections
  (⟨g.nodes, connections⟩, supply)

/-- A graph with what the editor knows about its project. -/
structure Project where
  name : String := ""
  slug : String := ""
  description : String := ""
  graph : AuthoredGraph

/-! ## Records -/

namespace Shape

variable {R : Type → Type} [Functor R] (f : Format R)

/-- The fields of a position, as far as they were read. -/
structure PositionParts where
  x : Option (Signed Float32) := none
  y : Option (Signed Float32) := none

def position : Record R PositionParts Position where
  name := "Position"
  fields :=
    [⟨"x", (·.x.isSome), (fun a p => { p with x := some a }) <$> f.single⟩,
     ⟨"y", (·.y.isSome), (fun a p => { p with y := some a }) <$> f.single⟩]
  start := {}
  finish p := return { x := ← require "x" p.x, y := ← require "y" p.y }

structure NodeDataParts where
  label : Option String := none
  properties : Option (Table String Value) := none

def nodeData : Record R NodeDataParts NodeData where
  name := "NodeData"
  fields :=
    [⟨"label", (·.label.isSome), (fun a p => { p with label := some a }) <$> f.text⟩,
     ⟨"properties", (·.properties.isSome),
       (fun a p => { p with properties := some a }) <$> f.table f.value⟩]
  start := {}
  finish p := return { label := p.label.getD "", properties := p.properties.getD ∅ }

structure NodeParts where
  id : Option NodeId := none
  kind : Option KindName := none
  position : Option Position := none
  data : Option NodeData := none

def node : Record R NodeParts Node where
  name := "Node"
  fields :=
    [⟨"id", (·.id.isSome), (fun a p => { p with id := some a }) <$> f.text⟩,
     ⟨"type", (·.kind.isSome), (fun a p => { p with kind := some a }) <$> f.text⟩,
     ⟨"position", (·.position.isSome),
       (fun a p => { p with position := some a }) <$> f.record (position f)⟩,
     ⟨"data", (·.data.isSome), (fun a p => { p with data := some a }) <$> f.record (nodeData f)⟩]
  start := {}
  finish p := return {
    id := ← require "id" p.id
    kind := ← require "type" p.kind
    position := p.position.getD {}
    data := p.data.getD {} }

structure ConnectionParts where
  id : Option ConnectionId := none
  fromNode : Option NodeId := none
  fromPort : Option PortId := none
  toNode : Option NodeId := none
  toPort : Option PortId := none

def connection : Record R ConnectionParts AuthoredConnection where
  name := "Connection"
  fields :=
    [⟨"id", (·.id.isSome), (fun a p => { p with id := some a }) <$> f.text⟩,
     ⟨"source", (·.fromNode.isSome), (fun a p => { p with fromNode := some a }) <$> f.text⟩,
     ⟨"sourceHandle", (·.fromPort.isSome), (fun a p => { p with fromPort := some a }) <$> f.text⟩,
     ⟨"target", (·.toNode.isSome), (fun a p => { p with toNode := some a }) <$> f.text⟩,
     ⟨"targetHandle", (·.toPort.isSome), (fun a p => { p with toPort := some a }) <$> f.text⟩]
  start := {}
  finish p := return {
    id := p.id
    fromNode := ← require "source" p.fromNode
    fromPort := ← require "sourceHandle" p.fromPort
    toNode := ← require "target" p.toNode
    toPort := ← require "targetHandle" p.toPort }

structure GraphParts where
  nodes : Option (List Node) := none
  connections : Option (List AuthoredConnection) := none

def graph : Record R GraphParts AuthoredGraph where
  name := "Graph"
  fields :=
    [⟨"nodes", (·.nodes.isSome),
       (fun a p => { p with nodes := some a }) <$> f.list (f.record (node f))⟩,
     ⟨"edges", (·.connections.isSome),
       (fun a p => { p with connections := some a }) <$> f.list (f.record (connection f))⟩]
  start := {}
  finish p := return { nodes := p.nodes.getD [], connections := p.connections.getD [] }

structure ProjectParts where
  name : Option String := none
  slug : Option String := none
  description : Option String := none
  graph : Option AuthoredGraph := none

def project : Record R ProjectParts Project where
  name := "GameProject"
  fields :=
    [⟨"name", (·.name.isSome), (fun a p => { p with name := some a }) <$> f.text⟩,
     ⟨"slug", (·.slug.isSome), (fun a p => { p with slug := some a }) <$> f.text⟩,
     ⟨"description", (·.description.isSome),
       (fun a p => { p with description := some a }) <$> f.text⟩,
     ⟨"graph", (·.graph.isSome), (fun a p => { p with graph := some a }) <$> f.record (graph f)⟩]
  start := {}
  finish p := return {
    name := p.name.getD ""
    slug := p.slug.getD ""
    description := p.description.getD ""
    graph := ← require "graph" p.graph }

structure PortParts where
  id : Option PortId := none
  name : Option String := none
  type : Option PortType := none
  fallback : Option (Option Value) := none

def port : Record R PortParts Port where
  name := "Port"
  fields :=
    [⟨"id", (·.id.isSome), (fun a p => { p with id := some a }) <$> f.text⟩,
     ⟨"name", (·.name.isSome), (fun a p => { p with name := some a }) <$> f.text⟩,
     ⟨"port_type", (·.type.isSome),
       (fun a p => { p with type := some a }) <$> f.choice PortType.choice⟩,
     ⟨"default_value", (·.fallback.isSome),
       (fun a p => { p with fallback := some a }) <$> f.optional f.value⟩]
  start := {}
  finish p := return {
    id := ← require "id" p.id
    name := ← require "name" p.name
    type := ← require "port_type" p.type
    fallback := p.fallback.getD none }

structure ExecutorConfigParts where
  pullPolicy : Option PullPolicy := none
  maxDepth : Option Nat := none

def executorConfig : Record R ExecutorConfigParts ExecutorConfig where
  name := "ExecutorConfig"
  fields :=
    [⟨"pull_policy", (·.pullPolicy.isSome),
       (fun a p => { p with pullPolicy := some a }) <$> f.choice PullPolicy.choice⟩,
     ⟨"max_depth", (·.maxDepth.isSome),
       (fun a p => { p with maxDepth := some a }) <$> f.natural "usize"⟩]
  start := {}
  finish p := return {
    pullPolicy := p.pullPolicy.getD ({} : ExecutorConfig).pullPolicy
    maxDepth := p.maxDepth.getD ({} : ExecutorConfig).maxDepth }

end Shape

end GraphScript

import GraphScript.Wiring

/-!
# Pass — one walk through a graph

- A pass runs every start node; control flow and data that a run leaves at its outputs push further
  nodes, depth first. A pushed node runs at most once, unless its kind is a frame trigger.
- Before a node is pushed, each data connection into it pulls: the source runs with empty inputs.
- `Pass` is the state of the walk; its `events` tell, last one first, what happened.
- `push` is structural in the room that is left below the depth limit.
-/

namespace GraphScript

/-! ## Configuration -/

/-- How often the source of a data connection runs. -/
inductive PullPolicy where
  /-- Anew for every connection. -/
  | reinvoke
  /-- Once in a pass, unless its kind has side effects. -/
  | memoizePerPass
  deriving DecidableEq, Repr, Inhabited

structure ExecutorConfig where
  pullPolicy : PullPolicy := .reinvoke
  /-- How many pushes may stand inside each other. -/
  maxDepth : Nat := 256
  deriving DecidableEq, Repr, Inhabited

/-- All that a pass does not change. -/
structure Plan (σ : Type) where
  wiring : Wiring
  catalogue : Catalogue σ
  config : ExecutorConfig

/-! ## Events -/

inductive Cause where
  /-- Control flow or data arrived, so many pushes away from a start node. -/
  | pushed (depth : Nat)
  /-- A connection that starts here is being resolved. -/
  | pulled
  deriving DecidableEq, Repr

structure Call where
  node : Node
  cause : Cause
  inputs : Inputs
  outputs : Option Outputs

inductive Event where
  | called (call : Call)
  /-- A connection was resolved: its source left these outputs. -/
  | resolved (connection : Connection) (outputs : Option Outputs)
  /-- A connection led from a node at the given depth to its target. -/
  | followed (connection : Connection) (depth : Nat)
  | noted (note : Note)

def Event.calls (events : List Event) : List Call :=
  events.filterMap fun | .called c => some c | _ => none

def Event.notes (events : List Event) : List Note :=
  events.filterMap fun | .noted n => some n | _ => none

/-! ## The state of a pass -/

structure Pass (σ : Type) where
  world : World σ
  memories : Table NodeId Slot
  /-- Nodes that were pushed, last one first. -/
  executed : List NodeId := []
  /-- What pulled nodes left, where it is kept. -/
  pulled : Table NodeId (Option Outputs) := ∅
  /-- What happened, last event first. -/
  events : List Event := []

namespace Pass

variable {σ : Type}

def record (s : Pass σ) (e : Event) : Pass σ := { s with events := e :: s.events }

def note (s : Pass σ) (n : Note) : Pass σ := s.record (.noted n)

/-- Run a node. Its memory has a place from then on, even if nothing is stored there. -/
def call (s : Pass σ) (d : Definition σ) (node : Node) (cause : Cause) (inputs : Inputs) :
    Option Outputs × Pass σ :=
  let outcome := d.run ⟨s.world, inputs, node, ((s.memories.get? node.id).getD none)⟩
  let s := { s with
    world := outcome.world
    memories := s.memories.insert node.id outcome.memory }
  let s := outcome.notes.foldl note s
  (outcome.outputs, s.record (.called ⟨node, cause, inputs, outcome.outputs⟩))

/-! ## Pulling -/

/-- Run the source of a data connection with empty inputs, or look up what it left before. -/
def pull (p : Plan σ) (d : Definition σ) (source : Node) (s : Pass σ) : Option Outputs × Pass σ :=
  if p.config.pullPolicy = .memoizePerPass ∧ ¬ d.sideEffects then
    match s.pulled.get? source.id with
    | some outputs => (outputs, s)
    | none =>
      let (outputs, s) := s.call d source .pulled {}
      (outputs, { s with pulled := s.pulled.insert source.id outputs })
  else s.call d source .pulled {}

/-- Let one connection deliver into the inputs of its target. Control connections deliver nothing,
and neither do connections from nodes that are missing or of unknown kind. -/
def deliver (p : Plan σ) (state : Inputs × Pass σ) (c : Connection) : Inputs × Pass σ :=
  let (inputs, s) := state
  match p.wiring.node? c.fromNode with
  | none => (inputs, s)
  | some source =>
    match p.catalogue.get? source.kind with
    | none => (inputs, s)
    | some d =>
      if d.isControlOutput c.fromPort then (inputs, s)
      else
        let (outputs, s) := pull p d source s
        let s := s.record (.resolved c outputs)
        match outputs.bind (·.get? c.fromPort) with
        | some value => (inputs.insert c.toPort value, s)
        | none => (inputs, s.note (.nothingToPull source.id c.fromPort))

def assemble (p : Plan σ) (target : Node) (s : Pass σ) : Inputs × Pass σ :=
  (p.wiring.connectionsTo target.id).foldl (deliver p) ({}, s)

/-! ## Pushing -/

/-- Is a connection open under the given outputs? Control flow passes where the value is truthy,
data wherever there is a value. -/
def isOpen (d : Definition σ) (outputs : Outputs) (port : PortId) : Bool :=
  if d.isControlOutput port then (outputs.get? port).any Value.isTruthy
  else (outputs.get? port).isSome

/-- Follow one connection behind a run at the given depth. `descend` pushes the target; it is
missing where the depth limit is reached. -/
def follow (p : Plan σ) (descend : Option (Node → Inputs → Pass σ → Pass σ)) (depth : Nat)
    (d : Definition σ) (node : Node) (outputs : Outputs) (s : Pass σ) (c : Connection) : Pass σ :=
  if isOpen d outputs c.fromPort then
    match p.wiring.node? c.toNode with
    | none => s.note (.targetMissing c.id c.toNode)
    | some target =>
      match descend with
      | none => s.note (.depthLimit p.config.maxDepth node.id target.id)
      | some descend =>
        let (inputs, s) := assemble p target (s.record (.followed c depth))
        descend target inputs s
  else if d.isControlOutput c.fromPort then s
  else s.note (.nothingToPush node.id c.fromPort c.id)

/-- Run a node and follow the connections behind it. Nothing happens where its kind is unknown, or
where it was pushed before and its kind is no frame trigger. -/
def visit (p : Plan σ) (descend : Option (Node → Inputs → Pass σ → Pass σ)) (depth : Nat)
    (node : Node) (inputs : Inputs) (s : Pass σ) : Pass σ :=
  match p.catalogue.get? node.kind with
  | none => s.note (.kindMissing node.kind node.id)
  | some d =>
    if ¬ d.frameTrigger ∧ node.id ∈ s.executed then s
    else
      let (outputs, s) :=
        ({ s with executed := node.id :: s.executed } : Pass σ).call d node (.pushed depth) inputs
      match outputs with
      | none => s
      | some outputs =>
        (p.wiring.connectionsFrom node.id).foldl (follow p descend depth d node outputs)
          (s.note (.produced node.id node.kind outputs.values.size))

/-- Push a node, with so much room below the depth limit. -/
def push (p : Plan σ) : (room depth : Nat) → Node → Inputs → Pass σ → Pass σ
  | 0, depth, node, inputs, s => visit p none depth node inputs s
  | room + 1, depth, node, inputs, s =>
    visit p (some (push p room (depth + 1))) depth node inputs s

def start (p : Plan σ) (s : Pass σ) (id : NodeId) : Pass σ :=
  match p.wiring.node? id with
  | none => s
  | some node => push p p.config.maxDepth 0 node {} s

end Pass

def Plan.pass {σ : Type} (p : Plan σ) (startNodes : List NodeId) (world : World σ)
    (memories : Table NodeId Slot) : Pass σ :=
  startNodes.foldl (Pass.start p) { world, memories }

end GraphScript

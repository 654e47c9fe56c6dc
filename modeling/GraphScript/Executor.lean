import GraphScript.Pass
import GraphScript.Validation

/-!
# Executor — a graph that runs pass by pass

- An `Executor` keeps the memories of the nodes and counts passes. `execute` makes one pass,
  `reset` forgets memories and count.
- Issues of the graph are reported once and tolerated afterwards.
-/

namespace GraphScript

structure Executor (σ : Type) where
  plan : Plan σ
  startNodes : List NodeId
  issues : List Issue
  /-- Places for the memories of all nodes that ran since the start or the last reset. -/
  memories : Table NodeId Slot := ∅
  /-- Passes since the start or the last reset. -/
  frame : Nat := 0

namespace Executor

variable {σ : Type}

def ofGraph (g : Graph) (c : Catalogue σ) (config : ExecutorConfig := {}) :
    Executor σ × List Note :=
  let issues := g.issues c
  let wiring := Wiring.ofGraph g
  let startNodes := wiring.startNodes c
  ({ plan := ⟨wiring, c, config⟩, startNodes, issues },
    issues.map .issueFound ++ [.graphCompiled wiring.nodes.size startNodes.length])

/-- Make one pass; the answer tells in order what happened. -/
def execute (e : Executor σ) (world : World σ) : Executor σ × World σ × List Event :=
  let s := e.plan.pass e.startNodes world e.memories
  ({ e with memories := s.memories, frame := e.frame + 1 }, s.world, s.events.reverse)

def reset (e : Executor σ) : Executor σ × List Note :=
  ({ e with memories := ∅, frame := 0 }, [.executorReset])

def hasMemory (e : Executor σ) (id : NodeId) : Bool := e.memories.contains id

def memory? (e : Executor σ) (id : NodeId) : Option Slot := e.memories.get? id

end Executor

end GraphScript

import GraphScript.Identity
import GraphScript.Scene

/-!
# World — what a running graph reads and changes

- A `World` holds the entities by id, the variables, the clock, the host and the supply of ids.
- Both tables keep the order in which their keys first arrived.
-/

namespace GraphScript

structure World (σ : Type) where
  entities : Table EntityId Handle := ∅
  vars : Table String Value := ∅
  /-- Milliseconds since the start. -/
  time : Float := 0
  /-- Milliseconds since the last frame. -/
  delta : Float := 0
  host : σ
  ids : IdSupply

namespace World

variable {σ : Type}

def ofHost (host : σ) (ids : IdSupply) : World σ := { host, ids }

def advance (w : World σ) (time delta : Float) : World σ := { w with time, delta }

/-- The handle of an entity. -/
def entity? (w : World σ) (id : EntityId) : Option Handle := w.entities.get? id

def hasEntity (w : World σ) (id : EntityId) : Bool := w.entities.contains id

def insertEntity (w : World σ) (id : EntityId) (handle : Handle) : World σ :=
  { w with entities := w.entities.insert id handle }

def removeEntity (w : World σ) (id : EntityId) : World σ :=
  { w with entities := w.entities.erase id }

def value? (w : World σ) (name : String) : Option Value := w.vars.get? name

def setVariable (w : World σ) (name : String) (value : Value) : World σ :=
  { w with vars := w.vars.insert name value }

def drawId (w : World σ) (word : String) : String × World σ :=
  let (id, ids) := w.ids.draw word
  (id, { w with ids })

variable [SceneHost σ]

def spawn (w : World σ) (request : SpawnRequest) : Handle × World σ :=
  let (handle, host) := SceneHost.spawn w.host request
  (handle, { w with host })

def destroy (w : World σ) (handle : Handle) : World σ :=
  { w with host := SceneHost.destroy w.host handle }

def isKeyDown (w : World σ) (key : Key) : Bool := SceneHost.isKeyDown w.host key

def requestRestart (w : World σ) : World σ := { w with host := SceneHost.requestRestart w.host }

/-- Was a restart asked for? The request is taken back. -/
def takeRestart (w : World σ) : Bool × World σ :=
  let (asked, host) := SceneHost.takeRestart w.host
  (asked, { w with host })

/-- Destroy the objects of all entities in their order, and forget all entities and variables. The
clock goes on. -/
def clear (w : World σ) : World σ :=
  { w with
    entities := ∅
    vars := ∅
    host := w.entities.values.foldl SceneHost.destroy w.host }

end World

end GraphScript

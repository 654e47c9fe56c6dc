import GraphScript.Definition

/-!
# Kind.Entities — nodes that deal with the objects of the scene

- `getEntity` looks an entity up, `spawn` makes one, `destroy` removes one, and `resetGame` clears
  the world and asks for a restart.
-/

namespace GraphScript.Kind

variable {σ : Type}

def getEntity : Definition σ where
  kind := "GetEntity"
  category := .world
  label := "Get Entity"
  inputs := [.control "exec"]
  outputs :=
    [.control "exec", { id := "entity", type := .entity }, { id := "exists", type := .boolean }]
  run a :=
    let id := (a.node.text? "entity").getD ""
    a.finish (some (Outputs.fire "exec"
      |>.set "entity" (.entity id)
      |>.set "exists" (.bool (a.world.hasEntity id))))

def defaultSprite : String := "player"

def defaultCoordinate : Float := 100

/-- The object that a node asks for under the given id. -/
def spawnRequest (a : Activation σ) (id : EntityId) : SpawnRequest where
  id := id
  sprite := a.inputs.textOr "sprite" a.node defaultSprite
  x := a.inputs.numberOr "x" a.node defaultCoordinate
  y := a.inputs.numberOr "y" a.node defaultCoordinate
  isStatic := ((a.node.property? "isStatic").map Value.isTruthy).getD false
  hasGravity := ((a.node.property? "hasGravity").map Value.isTruthy).getD true
  tag := a.node.text? "tag"

/-- Makes an object, unless its id is taken. A node that names no id draws one. -/
def spawn [SceneHost σ] : Definition σ where
  kind := "Spawn"
  category := .world
  inputs :=
    [.control "exec", { id := "sprite", type := .string, fallback := some (.text defaultSprite) },
     { id := "x", type := .number, fallback := some (.number defaultCoordinate) },
     { id := "y", type := .number, fallback := some (.number defaultCoordinate) }]
  outputs := [.control "exec", { id := "entity", type := .entity }]
  sideEffects := true
  run a :=
    let (id, world) :=
      match a.node.text? "entityId" with
      | some id => (id, a.world)
      | none => a.world.drawId "entity"
    let outputs := (Outputs.fire "exec").set "entity" (.entity id)
    if world.hasEntity id then { a.finish (some outputs) with world }
    else
      let request := spawnRequest a id
      let (handle, world) := world.spawn request
      { a.finish (some outputs) [.spawned a.node.id request] with
        world := world.insertEntity id handle }

def destroy [SceneHost σ] : Definition σ where
  kind := "Destroy"
  category := .world
  inputs := [.control "exec", { id := "entity", type := .entity }]
  outputs := [.control "exec"]
  sideEffects := true
  run a :=
    let found := (a.inputs.entity? "entity" a.node "entity").bind fun id =>
      (a.world.entity? id).map (id, ·)
    match found with
    | none => a.finish (some (.fire "exec"))
    | some (id, handle) =>
      { a.finish (some (.fire "exec")) [.destroyed a.node.id id] with
        world := (a.world.removeEntity id).destroy handle }

/-- Clears the world and asks for a restart. -/
def resetGame [SceneHost σ] : Definition σ where
  kind := "ResetGame"
  category := .scene
  label := "Reset Game"
  inputs := [.control "exec"]
  outputs := [.control "exec"]
  sideEffects := true
  run a :=
    { a.finish (some (.fire "exec")) [.worldCleared a.node.id a.world.entities.size] with
      world := a.world.clear.requestRestart }

end GraphScript.Kind

import GraphScript.Proofs.PassMaps
import GraphScript.Proofs.StandardKinds

/-!
# SceneShift — scenes that have a past

- A `Shift` is what the past of a scene leaves behind: handles that are used up, and counts.
- `World.shift` gives a world such a past. Entities, objects and everything else keep their order.
- `Kind.commutes_of_mem`: no standard kind notices the past, because handles are only handed on.
-/

namespace GraphScript

/-- How far handles and counts are ahead of those of another session. -/
structure Shift where
  handles : Nat := 0
  destroyed : Nat := 0
  requests : UInt32 := 0
  restarts : UInt32 := 0

namespace Shift

/-- The handle behind those that are used up. -/
def handle (k : Shift) (handle : Handle) : Handle := handle + k.handles

/-- A past does not mix up handles. -/
theorem handle_injective (k : Shift) : Function.Injective k.handle :=
  fun _ _ h => Nat.add_right_cancel h

end Shift

variable (k : Shift)

def HeadlessScene.shift (scene : HeadlessScene) : HeadlessScene :=
  { scene with
    lastHandle := k.handle scene.lastHandle
    live := scene.live.map k.handle k.handle_injective id
    destroyed := scene.destroyed + k.destroyed
    requestCount := scene.requestCount + k.requests }

def World.shift (w : World HeadlessScene) : World HeadlessScene :=
  { w with
    entities := w.entities.map id Function.injective_id k.handle
    host := w.host.shift k }

/-! ## Scenes -/

namespace HeadlessScene

variable (scene : HeadlessScene)

theorem destroy_shift (handle : Handle) :
    (scene.shift k).destroy (k.handle handle) = (scene.destroy handle).shift k := by
  have halive : (scene.shift k).live.contains (k.handle handle) = scene.live.contains handle :=
    Table.contains_map k.handle_injective scene.live handle
  have herase : (scene.shift k).live.erase (k.handle handle) =
      (scene.live.erase handle).map k.handle k.handle_injective id :=
    Table.erase_map k.handle_injective scene.live handle
  unfold destroy
  rw [halive, herase]
  split
  · -- Both scenes count one more, on top of their different counts.
    simp [shift, Nat.add_right_comm]
  · rfl

/-- Objects are destroyed alike, under handles that are ahead. -/
theorem foldl_destroy_shift (handles : List Handle) :
    (handles.map k.handle).foldl destroy (scene.shift k) = (handles.foldl destroy scene).shift k := by
  rw [List.foldl_map]
  exact List.foldl_hom (shift k) fun scene handle => destroy_shift k scene handle

theorem spawn_shift (request : SpawnRequest) :
    (scene.shift k).spawn request =
      (k.handle (scene.spawn request).1, (scene.spawn request).2.shift k) := by
  -- The next handle is as far ahead as all the others.
  have hnext : (scene.shift k).lastHandle + 1 = k.handle (scene.lastHandle + 1) :=
    Nat.add_right_comm _ _ _
  have hinsert : (scene.shift k).live.insert (k.handle (scene.lastHandle + 1)) request =
      (scene.live.insert (scene.lastHandle + 1) request).map k.handle k.handle_injective id :=
    Table.insert_map k.handle_injective scene.live (scene.lastHandle + 1) request
  simp only [spawn, hnext, hinsert]
  rfl

end HeadlessScene

/-! ## Worlds -/

namespace World

variable (w : World HeadlessScene)

theorem hasEntity_shift (entity : EntityId) : (w.shift k).hasEntity entity = w.hasEntity entity :=
  Table.contains_map Function.injective_id w.entities entity

theorem entity?_shift (entity : EntityId) :
    (w.shift k).entity? entity = (w.entity? entity).map k.handle :=
  Table.get?_map Function.injective_id w.entities entity

theorem insertEntity_shift (entity : EntityId) (handle : Handle) :
    (w.shift k).insertEntity entity (k.handle handle) = (w.insertEntity entity handle).shift k := by
  have hinsert : (w.shift k).entities.insert entity (k.handle handle) =
      (w.entities.insert entity handle).map id Function.injective_id k.handle :=
    Table.insert_map Function.injective_id w.entities entity handle
  simp only [insertEntity, hinsert]
  rfl

theorem removeEntity_shift (entity : EntityId) :
    (w.shift k).removeEntity entity = (w.removeEntity entity).shift k := by
  have herase : (w.shift k).entities.erase entity =
      (w.entities.erase entity).map id Function.injective_id k.handle :=
    Table.erase_map Function.injective_id w.entities entity
  simp only [removeEntity, herase]
  rfl

theorem spawn_shift (request : SpawnRequest) :
    (w.shift k).spawn request = (k.handle (w.spawn request).1, (w.spawn request).2.shift k) := by
  have hhost : SceneHost.spawn (w.shift k).host request = _ :=
    HeadlessScene.spawn_shift k w.host request
  simp only [spawn, hhost]
  rfl

theorem destroy_shift (handle : Handle) :
    (w.shift k).destroy (k.handle handle) = (w.destroy handle).shift k := by
  have hhost : SceneHost.destroy (w.shift k).host (k.handle handle) = _ :=
    HeadlessScene.destroy_shift k w.host handle
  simp only [destroy, hhost]
  rfl

theorem clear_shift : (w.shift k).clear = w.clear.shift k := by
  have hvalues : (w.shift k).entities.values = w.entities.values.map k.handle :=
    Table.values_map Function.injective_id w.entities
  have hhost : (w.entities.values.map k.handle).foldl SceneHost.destroy (w.shift k).host = _ :=
    HeadlessScene.foldl_destroy_shift k w.host w.entities.values
  simp only [clear, hvalues, hhost]
  rfl

theorem requestRestart_shift : (w.shift k).requestRestart = w.requestRestart.shift k := by
  have hhost : SceneHost.requestRestart (w.shift k).host =
      (SceneHost.requestRestart w.host : HeadlessScene).shift k := by
    have hcount : w.host.requestCount + k.requests + 1 = w.host.requestCount + 1 + k.requests := by
      ac_rfl
    simp [SceneHost.requestRestart, shift, HeadlessScene.shift, hcount]
  simp only [requestRestart, hhost]
  rfl

end World

/-! ## Kinds -/

namespace Kind

theorem onStart_commutes : (onStart : Definition HeadlessScene).Commutes (World.shift k) := by
  intro a
  have hrestore : ((a.mapWorld (World.shift k)).restore : Started × List Note) = a.restore := rfl
  simp only [onStart, hrestore]
  split <;> rfl

theorem onKey_commutes : (onKey : Definition HeadlessScene).Commutes (World.shift k) := by
  intro a
  have hkey : ∀ key, (a.mapWorld (World.shift k)).world.isKeyDown key = a.world.isKeyDown key :=
    fun _ => rfl
  have hnode : (a.mapWorld (World.shift k)).node = a.node := rfl
  simp only [onKey, hkey, hnode]
  split
  · rfl
  · split <;> rfl

theorem every_commutes : (every : Definition HeadlessScene).Commutes (World.shift k) := by
  intro a
  have hrestore : ((a.mapWorld (World.shift k)).restore : Ticked × List Note) = a.restore := rfl
  have htime : (a.mapWorld (World.shift k)).world.time = a.world.time := rfl
  have hnode : (a.mapWorld (World.shift k)).node = a.node := rfl
  simp only [every, hrestore, htime, hnode]
  split <;> rfl

theorem compare_commutes : (compare : Definition HeadlessScene).Commutes (World.shift k) := by
  intro a
  have hnode : (a.mapWorld (World.shift k)).node = a.node := rfl
  have hoperand : ∀ port, operand (a.mapWorld (World.shift k)) port = operand a port :=
    fun _ => rfl
  simp only [compare, hnode, hoperand]
  split <;> rfl

theorem getEntity_commutes : (getEntity : Definition HeadlessScene).Commutes (World.shift k) := by
  intro a
  have hentity : ∀ id, (a.mapWorld (World.shift k)).world.hasEntity id = a.world.hasEntity id :=
    fun id => World.hasEntity_shift k a.world id
  simp only [getEntity, hentity]
  rfl

theorem spawn_commutes : (spawn : Definition HeadlessScene).Commutes (World.shift k) := by
  intro a
  have hnode : (a.mapWorld (World.shift k)).node = a.node := rfl
  have hworld : (a.mapWorld (World.shift k)).world = a.world.shift k := rfl
  have hrequest : ∀ id, spawnRequest (a.mapWorld (World.shift k)) id = spawnRequest a id :=
    fun _ => rfl
  -- Ids are drawn from the same supply, so both worlds find the same id free or taken.
  have hdraw : (a.world.shift k).drawId "entity" =
      ((a.world.drawId "entity").1, (a.world.drawId "entity").2.shift k) := rfl
  cases hname : a.node.text? "entityId" with
  | some id =>
    simp only [spawn, hnode, hname, hworld, hrequest, World.hasEntity_shift, World.spawn_shift,
      World.insertEntity_shift]
    split <;> rfl
  | none =>
    simp only [spawn, hnode, hname, hworld, hrequest, hdraw, World.hasEntity_shift,
      World.spawn_shift, World.insertEntity_shift]
    split <;> rfl

theorem destroy_commutes : (destroy : Definition HeadlessScene).Commutes (World.shift k) := by
  intro a
  have hentity : (a.mapWorld (World.shift k)).inputs.entity? "entity"
      (a.mapWorld (World.shift k)).node "entity" = a.inputs.entity? "entity" a.node "entity" := rfl
  have hworld : (a.mapWorld (World.shift k)).world = a.world.shift k := rfl
  -- Nothing named, nothing known under the name, or an object with its handle.
  cases hid : a.inputs.entity? "entity" a.node "entity" with
  | none =>
    simp only [destroy, hentity, hid]
    rfl
  | some id =>
    cases hhandle : a.world.entity? id with
    | none =>
      simp only [destroy, hentity, hid, hworld, Option.bind_some, World.entity?_shift, hhandle]
      rfl
    | some handle =>
      simp only [destroy, hentity, hid, hworld, Option.bind_some, World.entity?_shift, hhandle,
        Option.map_some, World.removeEntity_shift, World.destroy_shift]
      rfl

theorem resetGame_commutes : (resetGame : Definition HeadlessScene).Commutes (World.shift k) := by
  intro a
  have hworld : (a.mapWorld (World.shift k)).world = a.world.shift k := rfl
  have hsize : (a.world.shift k).entities.size = a.world.entities.size := 
    Table.size_map Function.injective_id a.world.entities
  simp only [resetGame, hworld, hsize, World.clear_shift, World.requestRestart_shift]
  rfl

/-- No standard kind notices that its scene has a past. -/
theorem commutes_of_mem {d : Definition HeadlessScene} (hd : d ∈ standard) :
    d.Commutes (World.shift k) := by
  cases d, hd using standard_cases with
  | onStart => exact onStart_commutes k
  | onKey => exact onKey_commutes k
  | every => exact every_commutes k
  | branch | setVariable | addToVariable | getVariable => exact fun _ => rfl
  | compare => exact compare_commutes k
  | getEntity => exact getEntity_commutes k
  | spawn => exact spawn_commutes k
  | destroy => exact destroy_commutes k
  | resetGame => exact resetGame_commutes k

end Kind

/-- A pass over the standard kinds does not notice the past. -/
theorem Plan.pass_shift {p : Plan HeadlessScene} (hcatalogue : p.catalogue = Catalogue.standard)
    (starts : List NodeId) (world : World HeadlessScene) (memories : Table NodeId Slot) :
    p.pass starts (world.shift k) memories =
      (p.pass starts world memories).mapWorld (World.shift k) := by
  refine p.pass_mapWorld ?_ starts world memories
  intro kind d hd
  rw [hcatalogue] at hd
  exact Kind.commutes_of_mem k (Catalogue.mem_of_standard hd).1

end GraphScript

import GraphScript.Proofs.SessionRuns
import GraphScript.Proofs.StandardKinds

/-!
# SceneTable — the entities of a world and the objects of its scene

Whatever is done to a session, the table of entities lists exactly the objects that are alive, each
under the id with which it was made, and every object ever made is either alive or counted as
destroyed.

- `World.Paired` is the invariant: both tables are read as one relation between ids and handles.
- `Paired.change` takes it through every change that a run of a standard kind can make.
- `Event.spawns` counts the objects that were made, independently of the scene.
- `Session.entities_inStep` is the result for sessions.
-/

namespace GraphScript

/-! ## Objects that go -/

namespace HeadlessScene

variable (scene : HeadlessScene)

theorem destroy_of_alive {handle : Handle} {request : SpawnRequest}
    (h : scene.live.get? handle = some request) :
    scene.destroy handle =
      { scene with live := scene.live.erase handle, destroyed := scene.destroyed + 1 } := by
  have halive : scene.live.contains handle = true := Table.contains_iff.2 ⟨request, h⟩
  simp [destroy, halive]

/-- Nothing is destroyed twice. -/
theorem destroy_of_gone {handle : Handle} (h : scene.live.get? handle = none) :
    scene.destroy handle = scene := by
  have hgone : scene.live.contains handle = false := Table.contains_eq_false_iff.2 h
  simp [destroy, hgone]

theorem live_destroy (handle other : Handle) :
    (scene.destroy handle).live.get? other =
      if handle = other then none else scene.live.get? other := by
  cases h : scene.live.get? handle with
  | some request => rw [destroy_of_alive scene h, Table.get?_erase]
  | none =>
    rw [destroy_of_gone scene h]
    split
    · rename_i heq
      rw [← heq, h]
    · rfl

/-- An object moves from the living to the destroyed ones. -/
theorem count_destroy (handle : Handle) :
    (scene.destroy handle).live.size + (scene.destroy handle).destroyed =
      scene.live.size + scene.destroyed := by
  cases h : scene.live.get? handle with
  | some request =>
    have hsize := Table.size_erase h
    rw [destroy_of_alive scene h]
    simp only
    omega
  | none => rw [destroy_of_gone scene h]

theorem lastHandle_destroy (handle : Handle) :
    (scene.destroy handle).lastHandle = scene.lastHandle := by
  unfold destroy
  split <;> rfl

variable (handles : List Handle)

/-- After a number of objects are destroyed, all others live. -/
theorem live_foldl_destroy (other : Handle) :
    (handles.foldl destroy scene).live.get? other =
      if other ∈ handles then none else scene.live.get? other := by
  induction handles generalizing scene with
  | nil => simp
  | cons handle handles ih =>
    rw [List.foldl_cons, ih, live_destroy]
    by_cases hmem : other ∈ handles
    · simp [hmem]
    · by_cases heq : handle = other
      · simp [heq]
      · simp [hmem, heq, Ne.symm heq]

theorem count_foldl_destroy :
    (handles.foldl destroy scene).live.size + (handles.foldl destroy scene).destroyed =
      scene.live.size + scene.destroyed := by
  induction handles generalizing scene with
  | nil => rfl
  | cons handle handles ih => rw [List.foldl_cons, ih, count_destroy]

theorem lastHandle_foldl_destroy :
    (handles.foldl destroy scene).lastHandle = scene.lastHandle := by
  induction handles generalizing scene with
  | nil => rfl
  | cons handle handles ih => rw [List.foldl_cons, ih, lastHandle_destroy]

end HeadlessScene

/-! ## The invariant -/

/-- Entities and objects are the same relation between ids and handles, and objects are counted. -/
structure World.Paired (w : World HeadlessScene) : Prop where
  paired : ∀ id handle, w.entities.get? id = some handle ↔
    ∃ request, w.host.live.get? handle = some request ∧ request.id = id
  filled : ∀ handle request, w.host.live.get? handle = some request → request.id ≠ ""
  counted : w.host.live.size + w.host.destroyed = w.host.lastHandle
  bounded : ∀ handle request, w.host.live.get? handle = some request → handle ≤ w.host.lastHandle

namespace World.Paired

variable {w w' : World HeadlessScene}

/-- Without entities and objects they are paired. -/
theorem of_empty (hentities : w.entities = ∅) (hlive : w.host.live = ∅)
    (hcounted : w.host.live.size + w.host.destroyed = w.host.lastHandle) : w.Paired where
  paired id handle := by simp [hentities, hlive]
  filled handle request h := by simp [hlive] at h
  counted := hcounted
  bounded handle request h := by simp [hlive] at h

/-- A new object has a new handle, so nothing that is alive is lost. -/
theorem spawn (h : w.Paired) (request : SpawnRequest) (hfilled : request.id ≠ "")
    (hfree : w.entity? request.id = none) :
    ((w.spawn request).2.insertEntity request.id (w.spawn request).1).Paired := by
  -- Handles of living objects do not exceed the last one, so the next one is free.
  have hnew : w.host.live.get? (w.host.lastHandle + 1) = none := by
    refine Option.eq_none_iff_forall_not_mem.2 ?_
    intro r hr
    exact Nat.not_succ_le_self _ (h.bounded _ r hr)
  have hfree : w.entities.get? request.id = none := hfree
  constructor
  case paired =>
    intro id handle
    change (w.entities.insert request.id (w.host.lastHandle + 1)).get? id = some handle ↔
      ∃ r, (w.host.live.insert (w.host.lastHandle + 1) request).get? handle = some r ∧ r.id = id
    rw [Table.get?_insert, Table.get?_insert]
    by_cases hid : request.id = id
    · subst hid
      by_cases hhandle : w.host.lastHandle + 1 = handle
      · simp [hhandle]
      · -- The id was free, so no other object bears it.
        have hnone := h.paired request.id handle
        rw [hfree] at hnone
        simp only [hhandle, if_true, if_false, Option.some.injEq, false_iff]
        intro hr
        cases hnone.2 hr
    · by_cases hhandle : w.host.lastHandle + 1 = handle
      · subst hhandle
        -- The handle was free, so no other id had it.
        have hnone := h.paired id (w.host.lastHandle + 1)
        rw [hnew] at hnone
        simpa [hid] using hnone
      · simpa [hid, hhandle] using h.paired id handle
  case filled =>
    intro handle r hr
    change (w.host.live.insert (w.host.lastHandle + 1) request).get? handle = some r at hr
    rw [Table.get?_insert] at hr
    split at hr
    · cases hr
      exact hfilled
    · exact h.filled handle r hr
  case counted =>
    change (w.host.live.insert (w.host.lastHandle + 1) request).size + w.host.destroyed =
      w.host.lastHandle + 1
    have hcounted := h.counted
    rw [Table.size_insert hnew]
    omega
  case bounded =>
    intro handle r hr
    change (w.host.live.insert (w.host.lastHandle + 1) request).get? handle = some r at hr
    change handle ≤ w.host.lastHandle + 1
    rw [Table.get?_insert] at hr
    split at hr
    · rename_i heq
      exact Nat.le_of_eq heq.symm
    · exact Nat.le_succ_of_le (h.bounded handle r hr)

/-- An entity and its object go together. -/
theorem destroy (h : w.Paired) {id : EntityId} {handle : Handle}
    (hentity : w.entity? id = some handle) : ((w.removeEntity id).destroy handle).Paired := by
  have hentity : w.entities.get? id = some handle := hentity
  rcases (h.paired id handle).1 hentity with ⟨request, halive, hid⟩
  have hhost : ((w.removeEntity id).destroy handle).host = w.host.destroy handle := rfl
  constructor
  case paired =>
    intro id' handle'
    change (w.entities.erase id).get? id' = some handle' ↔
      ∃ r, (w.host.destroy handle).live.get? handle' = some r ∧ r.id = id'
    rw [Table.get?_erase, HeadlessScene.live_destroy]
    by_cases hid' : id = id'
    · -- The only object under this id is the one that goes.
      subst hid'
      simp only [if_true, reduceCtorEq, false_iff, not_exists, not_and]
      intro r hr hrid
      split at hr
      · cases hr
      · rename_i hne
        have hother : w.entities.get? id = some handle' := (h.paired id handle').2 ⟨r, hr, hrid⟩
        rw [hentity] at hother
        exact hne (Option.some.inj hother)
    · by_cases hhandle : handle = handle'
      -- No other entity had this object.
      · subst hhandle
        simp only [hid', if_true, if_false, reduceCtorEq, false_and, exists_false, iff_false]
        intro hother
        rcases (h.paired id' handle).1 hother with ⟨r, hr, hrid⟩
        rw [halive] at hr
        cases hr
        exact hid' (hid.symm.trans hrid)
      · simpa [hid', hhandle] using h.paired id' handle'
  case filled =>
    intro handle' r hr
    rw [hhost, HeadlessScene.live_destroy] at hr
    split at hr
    · cases hr
    · exact h.filled handle' r hr
  case counted =>
    -- One more is destroyed just as one less is alive.
    rw [hhost, HeadlessScene.count_destroy, HeadlessScene.lastHandle_destroy]
    exact h.counted
  case bounded =>
    intro handle' r hr
    rw [hhost, HeadlessScene.live_destroy] at hr
    rw [hhost, HeadlessScene.lastHandle_destroy]
    split at hr
    · cases hr
    · exact h.bounded handle' r hr

/-- Every object has an entity, so none survives a clearing. -/
theorem live_clear (h : w.Paired) : w.clear.host.live = ∅ := by
  refine Table.eq_empty_of_get? ?_
  intro handle
  have hhost : w.clear.host = w.entities.values.foldl HeadlessScene.destroy w.host := rfl
  rw [hhost, HeadlessScene.live_foldl_destroy]
  split
  · rfl
  · -- An object that is alive is listed among the entities, so this case is empty.
    rename_i hunlisted
    refine Option.eq_none_iff_forall_not_mem.2 ?_
    intro r hr
    exact hunlisted (Table.mem_values_iff.2 ⟨r.id, (h.paired r.id handle).2 ⟨r, hr, rfl⟩⟩)

theorem live_of_entities (h : w.Paired) (hentities : w.entities = ∅) : w.host.live = ∅ := by
  refine Table.eq_empty_of_get? ?_
  intro handle
  refine Option.eq_none_iff_forall_not_mem.2 ?_
  intro r hr
  have hentity := (h.paired r.id handle).2 ⟨r, hr, rfl⟩
  rw [hentities] at hentity
  cases hentity

/-- After a clearing there is nothing to pair. -/
theorem clear (h : w.Paired) : w.clear.Paired := by
  have hcount := HeadlessScene.count_foldl_destroy w.host w.entities.values
  have hlast := HeadlessScene.lastHandle_foldl_destroy w.host w.entities.values
  exact of_empty rfl h.live_clear (hcount.trans (h.counted.trans hlast.symm))

/-- The invariant only looks at entities, living objects and the two counters. -/
theorem congr (h : w.Paired) (hentities : w'.entities = w.entities)
    (hlive : w'.host.live = w.host.live) (hdestroyed : w'.host.destroyed = w.host.destroyed)
    (hlast : w'.host.lastHandle = w.host.lastHandle) : w'.Paired := by
  constructor
  · rw [hentities, hlive]
    exact h.paired
  · rw [hlive]
    exact h.filled
  · rw [hlive, hdestroyed, hlast]
    exact h.counted
  · rw [hlive, hlast]
    exact h.bounded

/-- Every change that a standard kind makes keeps them paired. -/
theorem change (h : w.Paired) (hchange : World.Change w w') : w'.Paired := by
  cases hchange with
  | assign name value => exact h.congr rfl rfl rfl rfl
  | draw => exact h.congr rfl rfl rfl rfl
  | spawn request hfilled hfree => exact h.spawn request hfilled hfree
  | destroy id handle hentity => exact h.destroy hentity
  | clear => exact h.clear.congr rfl rfl rfl rfl

theorem changes (h : w.Paired) (hchanges : World.Changes w w') : w'.Paired := by
  induction hchanges with
  | refl => exact h
  | tail _ hlast ih => exact ih.change hlast

/-- So does a pass. -/
theorem pass {p : Plan HeadlessScene} (hcatalogue : p.catalogue = Catalogue.standard)
    {starts : List NodeId} {memories : Table NodeId Slot} (h : w.Paired) :
    (p.pass starts w memories).world.Paired := by
  refine p.pass_world ?_ h
  intro kind d hd a ha
  rw [hcatalogue] at hd
  exact ha.changes (Kind.changes_of_mem (Catalogue.mem_of_standard hd).1 a)

end World.Paired

/-! ## Counting objects that are made -/

def Note.isSpawn : Note → Bool
  | .spawned .. => true
  | _ => false

def Event.spawns (events : List Event) : Nat := (Event.notes events).countP Note.isSpawn

namespace Event

theorem spawns_append (events more : List Event) :
    spawns (events ++ more) = spawns events + spawns more := by
  simp [spawns, notes, List.filterMap_append, List.countP_append]

theorem spawns_reverse (events : List Event) : spawns events.reverse = spawns events := by
  simp [spawns, notes, List.filterMap_reverse, List.countP_reverse]

theorem spawns_noted (ns : List Note) : spawns (ns.map .noted) = ns.countP Note.isSpawn := by
  induction ns with
  | nil => rfl
  | cons n ns ih => simp_all [spawns, notes, List.countP_cons]

theorem spawns_record {σ : Type} {s : Pass σ} {e : Event} (h : e.isOwn = true) :
    spawns (s.record e).events = spawns s.events := by
  cases e with
  | noted n => cases n <;> first | rfl | cases h
  | _ => rfl

theorem spawns_call {σ : Type} (s : Pass σ) (d : Definition σ) (node : Node) (cause : Cause)
    (inputs : Inputs) :
    spawns (s.call d node cause inputs).2.events =
      (s.outcome d node inputs).notes.countP Note.isSpawn + spawns s.events := by
  rw [Pass.call_events, ← spawns_noted, ← spawns_reverse (List.map _ _), ← spawns_append]
  rfl

end Event

namespace Kind

theorem spawns_restore {α : Type} [Stored α] {σ : Type} (a : Activation σ) :
    (a.restore : α × List Note).2.countP Note.isSpawn = 0 := by
  simp only [Activation.restore]
  split <;> rfl

section Quiet

variable {σ : Type} (a : Activation σ)

theorem spawns_onStart : (onStart.run a).notes.countP Note.isSpawn = 0 := by
  have hrestore : (a.restore : Started × List Note).2.countP Note.isSpawn = 0 := spawns_restore a
  simp only [onStart, Activation.finish]
  split
  · exact hrestore
  · rw [List.countP_append, hrestore]
    rfl

theorem spawns_onKey [SceneHost σ] : (onKey.run a).notes.countP Note.isSpawn = 0 := by
  simp only [onKey]
  split
  · rfl
  · split <;> rfl

theorem spawns_every : (every.run a).notes.countP Note.isSpawn = 0 := by
  have hrestore : (a.restore : Ticked × List Note).2.countP Note.isSpawn = 0 := spawns_restore a
  simp only [every, Activation.finish]
  split
  · exact hrestore
  · rw [List.countP_append, hrestore]
    rfl

theorem spawns_compare : (compare.run a).notes.countP Note.isSpawn = 0 := by
  simp only [compare]
  split <;> rfl

end Quiet

variable (a : Activation HeadlessScene)

/-- A node that spawns tells of it just if it took a handle. -/
theorem lastHandle_spawn :
    (spawn.run a).world.host.lastHandle =
      a.world.host.lastHandle + (spawn.run a).notes.countP Note.isSpawn := by
  cases hname : a.node.text? "entityId" with
  | some id => simp only [spawn, hname]; split <;> rfl
  | none => simp only [spawn, hname]; split <;> rfl

theorem lastHandle_destroy :
    (destroy.run a).world.host.lastHandle =
      a.world.host.lastHandle + (destroy.run a).notes.countP Note.isSpawn := by
  simp only [destroy]
  split
  · rfl
  · exact HeadlessScene.lastHandle_destroy _ _

/-- The scene hands out one handle for each object that a run tells of. -/
theorem lastHandle_of_mem {d : Definition HeadlessScene} (hd : d ∈ standard) :
    (d.run a).world.host.lastHandle =
      a.world.host.lastHandle + (d.run a).notes.countP Note.isSpawn := by
  cases d, hd using standard_cases with
  | onStart =>
    rw [world_onStart, spawns_onStart]
    rfl
  | onKey =>
    rw [world_onKey, spawns_onKey]
    rfl
  | every =>
    rw [world_every, spawns_every]
    rfl
  | branch | setVariable | addToVariable | getVariable | getEntity => rfl
  | compare =>
    rw [world_compare, spawns_compare]
    rfl
  | spawn => exact lastHandle_spawn a
  | destroy => exact lastHandle_destroy a
  | resetGame => exact HeadlessScene.lastHandle_foldl_destroy _ _

end Kind

/-- A pass over the standard kinds hands out one handle for each object that it tells of. -/
theorem Plan.lastHandle_pass {p : Plan HeadlessScene} (hcatalogue : p.catalogue = Catalogue.standard)
    (starts : List NodeId) (world : World HeadlessScene) (memories : Table NodeId Slot) :
    (p.pass starts world memories).world.host.lastHandle =
      world.host.lastHandle + Event.spawns (p.pass starts world memories).events := by
  refine p.invariant_pass
    (I := fun s => s.world.host.lastHandle = world.host.lastHandle + Event.spawns s.events)
    ?_ (fun _ _ _ hs => hs) (fun _ _ hs => hs) ?_ starts rfl
  · intro s e he hs
    rw [Event.spawns_record he]
    exact hs
  · intro s d node cause inputs hd hs
    rw [hcatalogue] at hd
    -- What the run tells is what the scene hands out in it; the rest was told before.
    have hrun := Kind.lastHandle_of_mem ⟨s.world, inputs, node, (s.memories.get? node.id).getD none⟩
      (Catalogue.mem_of_standard hd).1
    rw [Pass.call_world, Event.spawns_call, Pass.outcome, hrun]
    change s.world.host.lastHandle + _ = _
    rw [hs]
    exact (Nat.add_assoc _ _ _).trans (congrArg _ (Nat.add_comm _ _))

/-! ## Sessions -/

/-- Entities and objects agree after so many objects were made. -/
structure World.InStep (w : World HeadlessScene) (spawned : Nat) : Prop where
  /-- No two entities share an object. -/
  distinct : w.entities.values.Nodup
  /-- The objects of the entities are exactly those that are alive. -/
  alive : ∀ handle, handle ∈ w.entities.values ↔ handle ∈ w.host.live.keys
  /-- An object was made under the id of its entity, which is not empty. -/
  named : ∀ id handle, w.entity? id = some handle →
    ∃ request, w.host.live.get? handle = some request ∧ request.id = id ∧ id ≠ ""
  /-- No two objects that are alive were made under the same id. -/
  unshared : ∀ handle handle' request request', w.host.live.get? handle = some request →
    w.host.live.get? handle' = some request' → request.id = request'.id → handle = handle'
  /-- Whatever was made is alive or was destroyed, once. -/
  counted : w.host.live.size + w.host.destroyed = spawned
  bounded : ∀ handle ∈ w.host.live.keys, handle ≤ spawned

/-- Paired worlds are in step, as many objects having been made as handles were given. -/
theorem World.Paired.inStep {w : World HeadlessScene} (h : w.Paired) :
    w.InStep w.host.lastHandle where
  distinct := by
    refine Table.values_nodup ?_
    intro id id' handle hid hid'
    rcases (h.paired id handle).1 hid with ⟨request, halive, hrequest⟩
    rcases (h.paired id' handle).1 hid' with ⟨request', halive', hrequest'⟩
    rw [halive] at halive'
    cases halive'
    exact hrequest.symm.trans hrequest'
  alive handle := by
    rw [Table.mem_values_iff, Table.mem_keys_iff]
    constructor
    · rintro ⟨id, hid⟩
      rcases (h.paired id handle).1 hid with ⟨request, halive, -⟩
      exact ⟨request, halive⟩
    · rintro ⟨request, halive⟩
      exact ⟨request.id, (h.paired request.id handle).2 ⟨request, halive, rfl⟩⟩
  named id handle hid := by
    rcases (h.paired id handle).1 hid with ⟨request, halive, hrequest⟩
    exact ⟨request, halive, hrequest, hrequest ▸ h.filled handle request halive⟩
  unshared handle handle' request request' halive halive' heq := by
    have hid := (h.paired request.id handle).2 ⟨request, halive, rfl⟩
    have hid' := (h.paired request.id handle').2 ⟨request', halive', heq.symm⟩
    rw [hid] at hid'
    exact Option.some.inj hid'
  counted := h.counted
  bounded handle hhandle := by
    rcases Table.mem_keys_iff.1 hhandle with ⟨request, halive⟩
    exact h.bounded handle request halive

namespace Session

theorem paired_apply {s : Session HeadlessScene}
    (hcatalogue : s.executor.plan.catalogue = Catalogue.standard) (h : s.world.Paired) (op : Op) :
    (s.apply op).session.world.Paired := by
  refine apply_world (fun w hw => hw.clear) ?_ ?_ ?_ s (fun w hw => hw.pass hcatalogue) op h
  · exact fun w time delta hw => hw.congr rfl rfl rfl rfl
  · exact fun w key down hw => hw.congr rfl rfl rfl rfl
  · exact fun w hw => hw.congr rfl rfl rfl rfl

theorem lastHandle_apply {s : Session HeadlessScene}
    (hcatalogue : s.executor.plan.catalogue = Catalogue.standard) (op : Op) :
    (s.apply op).session.world.host.lastHandle =
      s.world.host.lastHandle + Event.spawns (s.apply op).events := by
  have hclear : s.world.clear.host.lastHandle = s.world.host.lastHandle :=
    HeadlessScene.lastHandle_foldl_destroy _ _
  cases op with
  | play => cases h : s.state <;> simp only [apply, play, h] <;> rfl
  | pause => by_cases h : s.state = .playing <;> simp only [apply, pause, h] <;> rfl
  | toggle => cases h : s.state <;> simp only [apply, toggle, pause, play, h] <;> rfl
  | stop =>
    cases h : s.state.isActive with
    | false => simp only [apply, stop, h]; rfl
    | true => simp only [apply, stop, h]; exact hclear
  | reset => exact hclear
  | update milliseconds =>
    by_cases hplaying : s.state = .playing
    · have hpass := Plan.lastHandle_pass hcatalogue s.executor.startNodes
        (s.world.advance (s.elapsed + milliseconds * s.timeScale) (milliseconds * s.timeScale))
        s.executor.memories
      cases hasked : (s.updatePass milliseconds).world.host.restartPending with
      | false =>
        rw [apply, update_of_quiet hplaying hasked, Event.spawns_reverse]
        exact hpass
      | true =>
        -- The restart that follows destroys objects, and makes none.
        rw [apply, update_of_restart hplaying hasked, Event.spawns_append, Event.spawns_reverse]
        exact (HeadlessScene.lastHandle_foldl_destroy _ _).trans hpass
    · rw [apply, update_of_not_playing hplaying]
      rfl
  | scale factor => rfl
  | key key down => rfl

/-- Sessions stay paired, and handles are counted in all that happens. -/
theorem inStep_run {s : Session HeadlessScene}
    (hcatalogue : s.executor.plan.catalogue = Catalogue.standard) (h : s.world.Paired)
    (ops : List Op) :
    (s.run ops).world.Paired ∧
      (s.run ops).world.host.lastHandle =
        s.world.host.lastHandle + Event.spawns (s.history ops) := by
  induction ops generalizing s with
  | nil => exact ⟨h, rfl⟩
  | cons op ops ih =>
    have hcatalogue' : (s.apply op).session.executor.plan.catalogue = Catalogue.standard := by
      rw [(apply_executor s op).1]
      exact hcatalogue
    rcases ih hcatalogue' (paired_apply hcatalogue h op) with ⟨hpaired, hlast⟩
    refine ⟨hpaired, ?_⟩
    rw [history, Event.spawns_append]
    calc (s.run (op :: ops)).world.host.lastHandle
        = (s.apply op).session.world.host.lastHandle +
            Event.spawns ((s.apply op).session.history ops) := hlast
      _ = s.world.host.lastHandle + Event.spawns (s.apply op).events +
            Event.spawns ((s.apply op).session.history ops) := by
          rw [lastHandle_apply hcatalogue op]
      _ = _ := Nat.add_assoc _ _ _

/-- In every session that began with a new scene, whatever was done to it, entities and objects
agree, and every object that was ever made is accounted for. -/
theorem entities_inStep (g : Graph) (config : ExecutorConfig) (ids : IdSupply) (ops : List Op) :
    ((fresh g config ids).run ops).world.InStep
      (Event.spawns ((fresh g config ids).history ops)) := by
  have hstep := inStep_run (s := fresh g config ids) rfl (World.Paired.of_empty rfl rfl rfl) ops
  rcases hstep with ⟨hpaired, hlast⟩
  have hstart : (fresh g config ids).world.host.lastHandle = 0 := rfl
  rw [hstart, Nat.zero_add] at hlast
  exact hlast ▸ hpaired.inStep

end Session

end GraphScript

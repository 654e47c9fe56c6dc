import GraphScript.Kind.Standard
import GraphScript.Proofs.TableEntries
import Mathlib.Logic.Relation

/-!
# StandardKinds — what the standard kinds can do to a world

- `Catalogue.mem_of_standard`: whatever the standard catalogue finds is one of the listed kinds.
- `World.Change` lists the changes that runs of standard kinds are made of, each with what is known
  where it happens; `Kind.changes_of_mem` says that there are no others.
- `Catalogue.time_of_standard`: none of them moves the clock.
-/

namespace GraphScript

variable {σ : Type}

/-! ## Kind by kind -/

/-- What holds of each of the standard kinds holds of all of them. -/
@[elab_as_elim]
theorem Kind.standard_cases [SceneHost σ] {motive : (d : Definition σ) → d ∈ standard → Prop}
    (onStart : motive onStart (by simp [standard])) (onKey : motive onKey (by simp [standard]))
    (every : motive every (by simp [standard])) (branch : motive branch (by simp [standard]))
    (setVariable : motive setVariable (by simp [standard]))
    (addToVariable : motive addToVariable (by simp [standard]))
    (getVariable : motive getVariable (by simp [standard]))
    (compare : motive compare (by simp [standard]))
    (getEntity : motive getEntity (by simp [standard])) (spawn : motive spawn (by simp [standard]))
    (destroy : motive destroy (by simp [standard]))
    (resetGame : motive resetGame (by simp [standard])) (d : Definition σ) (hd : d ∈ standard) :
    motive d hd := by
  have hlisted := hd
  simp only [standard, List.mem_cons, List.not_mem_nil, or_false] at hlisted
  rcases hlisted with rfl | rfl | rfl | rfl | rfl | rfl | rfl | rfl | rfl | rfl | rfl | rfl <;>
    assumption

/-! ## Looking kinds up -/

namespace Catalogue

/-- What is found after registering was there before, or is one of the registered kinds. -/
theorem get?_registerAll {c : Catalogue σ} {ds : List (Definition σ)} {kind : KindName}
    {d : Definition σ} (h : (registerAll c ds).1.get? kind = some d) :
    c.get? kind = some d ∨ (d ∈ ds ∧ d.kind = kind) := by
  induction ds generalizing c with
  | nil => exact Or.inl h
  | cons d₀ ds ih =>
    rcases ih (c := (register c d₀).1) h with hget | ⟨hmem, hkind⟩
    · -- The first definition is found, unless a later one took its place.
      rw [register, Table.get?_insert] at hget
      split at hget
      · rename_i hkind
        cases hget
        exact Or.inr ⟨List.mem_cons_self, hkind⟩
      · exact Or.inl hget
    · exact Or.inr ⟨List.mem_cons_of_mem _ hmem, hkind⟩

theorem mem_of_standard [SceneHost σ] {kind : KindName} {d : Definition σ}
    (h : (standard : Catalogue σ).get? kind = some d) : d ∈ Kind.standard ∧ d.kind = kind := by
  rcases get?_registerAll h with hget | hmem
  · cases hget
  · exact hmem

/-- A kind that is not registered is looked up where it was. -/
theorem get?_registerAll_of_not_mem {c : Catalogue σ} {ds : List (Definition σ)} {kind : KindName}
    (hnot : kind ∉ ds.map (·.kind)) : (registerAll c ds).1.get? kind = c.get? kind := by
  induction ds generalizing c with
  | nil => rfl
  | cons d ds ih =>
    rw [List.map_cons, List.mem_cons, not_or] at hnot
    calc (registerAll c (d :: ds)).1.get? kind
        = (register c d).1.get? kind := ih hnot.2
      _ = c.get? kind := by rw [register, Table.get?_insert, if_neg (Ne.symm hnot.1)]

/-- If no kind is registered twice, all of them are found. -/
theorem get?_registerAll_of_mem {c : Catalogue σ} {ds : List (Definition σ)} {d : Definition σ}
    (hnodup : (ds.map (·.kind)).Nodup) (hd : d ∈ ds) :
    (registerAll c ds).1.get? d.kind = some d := by
  induction ds generalizing c with
  | nil => cases hd
  | cons d₀ ds ih =>
    rw [List.map_cons, List.nodup_cons] at hnodup
    rcases List.mem_cons.1 hd with rfl | hd
    · calc (registerAll c (d :: ds)).1.get? d.kind
          = (register c d).1.get? d.kind := get?_registerAll_of_not_mem hnodup.1
        _ = some d := by rw [register, Table.get?_insert, if_pos rfl]
    · exact ih hnodup.2 hd

/-- Each standard kind is found under its name. -/
theorem get?_of_mem_standard [SceneHost σ] {d : Definition σ} (hd : d ∈ Kind.standard) :
    (standard : Catalogue σ).get? d.kind = some d := by
  have hkinds : (Kind.standard : List (Definition σ)).map (·.kind) =
      ["OnStart", "OnKey", "Every", "If", "SetVar", "AddVar", "GetVariable", "Compare", "GetEntity",
        "Spawn", "Destroy", "ResetGame"] := rfl
  exact get?_registerAll_of_mem (hkinds ▸ by decide) hd

/-- No two standard kinds have one name. -/
theorem eq_of_kind_eq [SceneHost σ] {d d' : Definition σ} (hd : d ∈ Kind.standard)
    (hd' : d' ∈ Kind.standard) (h : d.kind = d'.kind) : d = d' := by
  have hget := get?_of_mem_standard hd
  rw [h, get?_of_mem_standard hd'] at hget
  exact (Option.some.inj hget).symm

end Catalogue

/-! ## Changes of the world -/

variable [SceneHost σ]

/-- One change that a run of a standard kind makes to the world. -/
inductive World.Change : World σ → World σ → Prop where
  | assign (w : World σ) (name : String) (value : Value) : Change w (w.setVariable name value)
  | draw (w : World σ) : Change w (w.drawId "entity").2
  | spawn (w : World σ) (request : SpawnRequest) (hfilled : request.id ≠ "")
      (hfree : w.entity? request.id = none) :
      Change w ((w.spawn request).2.insertEntity request.id (w.spawn request).1)
  | destroy (w : World σ) (id : EntityId) (handle : Handle) (h : w.entity? id = some handle) :
      Change w ((w.removeEntity id).destroy handle)
  | clear (w : World σ) : Change w w.clear.requestRestart

abbrev World.Changes : World σ → World σ → Prop := Relation.ReflTransGen World.Change

namespace Kind

theorem text?_ne_empty {node : Node} {key text : String} (h : node.text? key = some text) :
    text ≠ "" := by
  rw [Node.text?, Option.bind_eq_some_iff] at h
  rcases h with ⟨v, -, hv⟩
  rw [Value.asFilledText?, Option.filter_eq_some_iff] at hv
  rintro rfl
  exact absurd hv.2 (by decide)

omit [SceneHost σ] in
/-- Ids that are drawn are not empty. -/
theorem drawId_ne_empty (w : World σ) (word : String) : (w.drawId word).1 ≠ "" := by
  intro h
  have hlength := congrArg String.length h
  simp [World.drawId, IdSupply.draw] at hlength

/-! ## Kinds that leave the world alone -/

section Quiet

omit [SceneHost σ]

variable (a : Activation σ)

theorem world_onStart : (onStart.run a).world = a.world := by
  simp only [onStart]
  split <;> rfl

theorem world_onKey [SceneHost σ] : (onKey.run a).world = a.world := by
  simp only [onKey]
  split
  · rfl
  · split <;> rfl

theorem world_every : (every.run a).world = a.world := by
  simp only [every]
  split <;> rfl

theorem world_compare : (compare.run a).world = a.world := by
  simp only [compare]
  split <;> rfl

end Quiet

/-! ## Kinds that change the world -/

/-- A node that finds its id free spawns under it; otherwise nothing happens. -/
theorem changes_spawn (a : Activation σ) : World.Changes a.world (spawn.run a).world := by
  cases hname : a.node.text? "entityId" with
  | some id =>
    simp only [spawn, hname]
    split
    · exact .refl
    · rename_i hfree
      refine .single (.spawn a.world (spawnRequest a id) (text?_ne_empty hname) ?_)
      exact Table.contains_eq_false_iff.1 (Bool.eq_false_iff.2 hfree)
  | none =>
    simp only [spawn, hname]
    -- A drawn id is used up even where it is taken already.
    have hdraw : World.Changes a.world (a.world.drawId "entity").2 := .single (.draw a.world)
    split
    · exact hdraw
    · rename_i hfree
      refine hdraw.tail (.spawn _ (spawnRequest a (a.world.drawId "entity").1)
        (drawId_ne_empty a.world "entity") ?_)
      exact Table.contains_eq_false_iff.1 (Bool.eq_false_iff.2 hfree)

/-- A node that destroys takes away an entity and its object, or changes nothing. -/
theorem changes_destroy (a : Activation σ) : World.Changes a.world (destroy.run a).world := by
  cases hid : a.inputs.entity? "entity" a.node "entity" with
  | none =>
    simp only [destroy, hid]
    exact .refl
  | some id =>
    cases hhandle : a.world.entity? id with
    | none =>
      simp only [destroy, hid, Option.bind_some, hhandle]
      exact .refl
    | some handle =>
      simp only [destroy, hid, Option.bind_some, hhandle]
      exact .single (.destroy a.world id handle hhandle)

/-- A run of a standard kind makes no other changes. -/
theorem changes_of_mem {d : Definition σ} (hd : d ∈ standard) (a : Activation σ) :
    World.Changes a.world (d.run a).world := by
  cases d, hd using standard_cases with
  | onStart => rw [world_onStart]
  | onKey => rw [world_onKey]
  | every => rw [world_every]
  | branch | getVariable | getEntity => exact .refl -- these only choose an output or look something up
  | setVariable | addToVariable => exact .single (.assign a.world _ _)
  | compare => rw [world_compare]
  | spawn => exact changes_spawn a
  | destroy => exact changes_destroy a
  | resetGame => exact .single (.clear a.world)

end Kind

/-! ## The clock -/

theorem World.Changes.time {w w' : World σ} (h : World.Changes w w') : w'.time = w.time := by
  induction h with
  | refl => rfl
  | tail _ hlast ih =>
    rw [← ih]
    cases hlast with
    | _ => rfl

/-- No standard kind sets the clock. -/
theorem Catalogue.time_of_standard {kind : KindName} {d : Definition σ}
    (hd : (standard : Catalogue σ).get? kind = some d) (a : Activation σ) :
    (d.run a).world.time = a.world.time :=
  (Kind.changes_of_mem (mem_of_standard hd).1 a).time

end GraphScript

import GraphScript.Proofs.TriggerMemory

/-!
# SideEffects — what kinds without side effects change

A kind is marked if a run of it may change more than its own outputs.  Of the standard kinds that are
not marked

- none changes the world, whatever its node, its inputs and its memory are;
- all but two leave the memory of the node alone as well, so a run that is repeated at once leaves the
  same outputs again;
- the other two remember that they ran (`OnStart`) or when they ticked (`Every`), so their second run
  in a row may leave something else.  It changes nothing, and so do all that follow it.

`Kind.unmarked_runs` puts this together; `Kind.triggers_remember` shows the two kinds at work.
-/

namespace GraphScript

variable {σ : Type}

/-- The run that follows, if one from this activation is repeated at once. -/
def Activation.again (a : Activation σ) (d : Definition σ) : Activation σ :=
  { a with world := (d.run a).world, memory := (d.run a).memory }

/-- Where a run changes nothing, the next one starts as it did. -/
theorem Activation.again_eq {a : Activation σ} {d : Definition σ}
    (hworld : (d.run a).world = a.world) (hmemory : (d.run a).memory = a.memory) :
    a.again d = a := by
  rw [again, hworld, hmemory]

namespace Kind

/-! ## Kinds that leave memories alone -/

theorem memory_onKey [SceneHost σ] (a : Activation σ) : (onKey.run a).memory = a.memory := by
  simp only [onKey]
  split
  · rfl
  · split <;> rfl

theorem memory_compare (a : Activation σ) : (compare.run a).memory = a.memory := by
  simp only [compare]
  split <;> rfl

/-! ## Kinds that remember -/

/-- Whether or not a timer ticked, another run at the same time finds in its memory what it leaves
there. -/
theorem memory_every_again (a : Activation σ) :
    (every.run (a.again every)).memory = (every.run a).memory := by
  have hworld : (a.again every).world = a.world := world_every a
  have hlast : (a.again every).memory.lastTick =
      if Due a.node a.memory.lastTick a.world.time then a.world.time else a.memory.lastTick := by
    have hmemory : (a.again every).memory = (every.run a).memory := rfl
    simpa using congrArg Slot.lastTick (hmemory.trans (memory_every a))
  rw [memory_every, memory_every, hworld, hlast]
  congr 2
  by_cases hdue : Due a.node a.memory.lastTick a.world.time
  · -- A second tick would be at the time of the first one.
    simp [hdue]
  · have hstill : ¬ Due (a.again every).node a.memory.lastTick a.world.time := hdue
    simp [hdue, hstill]

variable [SceneHost σ]

/-- Runs of kinds without side effects leave the world as it is. -/
theorem world_of_unmarked {d : Definition σ} (hd : d ∈ standard) (hpure : d.sideEffects = false)
    (a : Activation σ) : (d.run a).world = a.world := by
  cases d, hd using standard_cases with
  | onStart => exact world_onStart a
  | onKey => exact world_onKey a
  | every => exact world_every a
  | branch | getVariable | getEntity => rfl -- these only choose an output or look something up
  | compare => exact world_compare a
  | setVariable | addToVariable | spawn | destroy | resetGame => cases hpure

/-- Kinds without side effects do not change memories, unless they are among the two that remember. -/
theorem memory_of_unmarked {d : Definition σ} (hd : d ∈ standard) (hpure : d.sideEffects = false)
    (hforgets : d.kind ≠ "OnStart" ∧ d.kind ≠ "Every") (a : Activation σ) :
    (d.run a).memory = a.memory := by
  cases d, hd using standard_cases with
  | onStart => exact absurd rfl hforgets.1
  | onKey => exact memory_onKey a
  | every => exact absurd rfl hforgets.2
  | branch | getVariable | getEntity => rfl
  | compare => exact memory_compare a
  | setVariable | addToVariable | spawn | destroy | resetGame => cases hpure

/-- The second run in a row finds in the memory of its node what it leaves there, whatever its kind. -/
theorem memory_again_of_unmarked {d : Definition σ} (hd : d ∈ standard)
    (hpure : d.sideEffects = false) (a : Activation σ) :
    (d.run (a.again d)).memory = (d.run a).memory := by
  by_cases hstart : d.kind = "OnStart"
  · obtain rfl : d = onStart := Catalogue.eq_of_kind_eq hd (by simp [standard]) hstart
    rw [memory_onStart, memory_onStart]
  · by_cases hevery : d.kind = "Every"
    · obtain rfl : d = every := Catalogue.eq_of_kind_eq hd (by simp [standard]) hevery
      exact memory_every_again a
    · exact memory_of_unmarked hd hpure ⟨hstart, hevery⟩ (a.again d)

/-- What runs of kinds without side effects change, and what they leave when they are repeated. -/
theorem unmarked_runs {d : Definition σ} (hd : d ∈ standard) (hpure : d.sideEffects = false)
    (a : Activation σ) :
    (d.run a).world = a.world ∧
      (d.kind ≠ "OnStart" ∧ d.kind ≠ "Every" →
        (d.run a).memory = a.memory ∧ (d.run (a.again d)).outputs = (d.run a).outputs) ∧
      (d.run (a.again d)).memory = (d.run a).memory ∧
      (d.run ((a.again d).again d)).outputs = (d.run (a.again d)).outputs := by
  have hworld : ∀ a, (d.run a).world = a.world := world_of_unmarked hd hpure
  refine ⟨hworld a, ?_, memory_again_of_unmarked hd hpure a, ?_⟩
  · intro hforgets
    have hmemory := memory_of_unmarked hd hpure hforgets a
    exact ⟨hmemory, by rw [Activation.again_eq (hworld a) hmemory]⟩
  · -- From the second run on, each one starts as the one before.
    rw [Activation.again_eq (hworld (a.again d)) (memory_again_of_unmarked hd hpure a)]

/-- While the space bar is held, a node that waits for it fires again and again. -/
theorem unmarked_runs_held :
    let held : HeadlessScene := ({} : HeadlessScene).setKey .space true
    let a : Activation HeadlessScene :=
      ⟨.ofHost held ⟨fun _ => "", 0⟩, {}, .ofKind "key" "OnKey", none⟩
    (onKey : Definition HeadlessScene).sideEffects = false ∧
      (onKey.run a).outputs.bind (·.get? "key") = some (.text "SPACE") ∧
      (onKey.run a).memory = a.memory ∧
      (onKey.run (a.again onKey)).outputs = (onKey.run a).outputs := by
  intro held a
  have hquiet := (unmarked_runs (d := onKey) (by simp [standard]) rfl a).2.1 (by decide)
  exact ⟨rfl, by decide +kernel, hquiet⟩

/-- Neither of the two kinds that remember is marked, and yet a run changes the memory of the node and
with it what the next run leaves. -/
theorem triggers_remember :
    let world : World HeadlessScene := { World.ofHost {} ⟨fun _ => "", 0⟩ with time := 1000 }
    let start : Activation HeadlessScene := ⟨world, {}, .ofKind "start" "OnStart", none⟩
    let timer : Activation HeadlessScene := ⟨world, {}, .ofKind "every" "Every", none⟩
    ((onStart : Definition HeadlessScene).sideEffects = false ∧
      (onStart.run start).memory ≠ start.memory ∧
      (onStart.run start).outputs.bind (·.get? "exec") = some (.bool true) ∧
      (onStart.run (start.again onStart)).outputs.bind (·.get? "exec") = none) ∧
    (every : Definition HeadlessScene).sideEffects = false ∧
      (every.run timer).memory ≠ timer.memory ∧
      (every.run timer).outputs.bind (·.get? "exec") = some (.bool true) ∧
      (every.run (timer.again every)).outputs.bind (·.get? "exec") = none := by
  decide

end Kind

end GraphScript

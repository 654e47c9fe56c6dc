import GraphScript.Proofs.StandardKinds

/-!
# TriggerMemory — what frame triggers remember

Two of the standard kinds keep something in the memory of their node.

- `Slot.hasRun` and `Slot.lastTick` read such a memory, whatever it holds;
- `Kind.outputs_onStart`, `Kind.memory_onStart` — a node that fires once, and remembers that it ran;
- `Kind.outputs_every`, `Kind.memory_every` — a timer that ticks when it is due, and remembers when.
-/

namespace GraphScript

variable {σ : Type}

/-! ## Reading a memory -/

/-- Has the node run, as a node that fires once finds it in its memory? -/
def Slot.hasRun (s : Slot) : Bool := (s.getOrDefault : Started × Bool).1.hasRun

@[simp] theorem Slot.hasRun_set (ran : Bool) : Slot.hasRun (Slot.set (Started.mk ran)) = ran := by
  simp [hasRun, getOrDefault]

/-- The time of the last tick, as a timer finds it in its memory. -/
def Slot.lastTick (s : Slot) : Float := (s.getOrDefault : Ticked × Bool).1.last

@[simp] theorem Slot.lastTick_set (time : Float) :
    Slot.lastTick (Slot.set (Ticked.mk time)) = time := by
  simp [lastTick, getOrDefault]

namespace Kind

/-! ## Nodes that fire once -/

theorem outputs_onStart (a : Activation σ) :
    (onStart.run a).outputs = some (if a.memory.hasRun then {} else .fire "exec") := by
  have hran : (a.restore : Started × List Note).1.hasRun = a.memory.hasRun := rfl
  simp only [onStart, hran]
  split <;> rfl

theorem memory_onStart (a : Activation σ) : (onStart.run a).memory = Slot.set (Started.mk true) := by
  simp only [onStart]
  split
  · rename_i hran
    exact congrArg Slot.set (congrArg Started.mk hran)
  · rfl

/-! ## Timers -/

def Due (node : Node) (last time : Float) : Prop := ¬ time - last < interval node

instance (node : Node) (last time : Float) : Decidable (Due node last time) :=
  inferInstanceAs (Decidable (¬ time - last < interval node))

def tick (time : Float) : Outputs := (Outputs.fire "exec").set "time" (.number time)

theorem outputs_every (a : Activation σ) : (every.run a).outputs =
    if Due a.node a.memory.lastTick a.world.time then some (tick a.world.time) else none := by
  have hlast : (a.restore : Ticked × List Note).1.last = a.memory.lastTick := rfl
  by_cases hwaits : a.world.time - a.memory.lastTick < interval a.node
  · simp [every, hlast, hwaits, Due, Activation.finish]
  · simp [every, hlast, hwaits, Due, Activation.finish, tick]

/-- A timer remembers the time of this tick, or else that of the one before. -/
theorem memory_every (a : Activation σ) : (every.run a).memory =
    Slot.set (Ticked.mk
      (if Due a.node a.memory.lastTick a.world.time then a.world.time else a.memory.lastTick)) := by
  have hlast : (a.restore : Ticked × List Note).1.last = a.memory.lastTick := rfl
  by_cases hwaits : a.world.time - a.memory.lastTick < interval a.node
  · simp only [every, hlast, hwaits, Due, if_true, not_true, if_false]
    rfl
  · simp only [every, hlast, hwaits, Due, if_false, not_false_eq_true, if_true]

end Kind

end GraphScript

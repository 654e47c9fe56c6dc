import GraphScript.Proofs.SideEffects

/-!
# LocalKinds — which variables a node can see

The standard kinds that do not deal with entities read the clock, the keys and the variable that their
node names, and change nothing but that variable.

- `Node.variables` — the variable of a node, if it has one;
- `World.Alike` — two worlds look the same, as far as some of the variables go;
- `Definition.Local` and `Kind.local_of_entityFree` — a run of the node goes on alike in worlds that
  look the same to it, and leaves all other variables alone.
-/

namespace GraphScript

variable {σ : Type}

/-- The variable that a node of a standard kind reads or writes, if there is one. -/
def Node.variables (n : Node) : List String :=
  if n.kind = "SetVar" ∨ n.kind = "AddVar" then [Kind.variableName n "varName"]
  else if n.kind = "GetVariable" then [Kind.variableName n "variable"]
  else []

def Graph.variables (g : Graph) : List String := g.nodes.flatMap Node.variables

/-! ## Worlds that look the same -/

/-- The same clock, the same host and the same values of some variables. -/
structure World.Alike (names : String → Prop) (w w' : World σ) : Prop where
  time : w'.time = w.time
  host : w'.host = w.host
  vars : ∀ name, names name → w'.value? name = w.value? name

namespace World.Alike

variable {names names' : String → Prop} {w w' w'' : World σ}

theorem refl (names : String → Prop) (w : World σ) : Alike names w w :=
  ⟨rfl, rfl, fun _ _ => rfl⟩

theorem symm (h : Alike names w w') : Alike names w' w :=
  ⟨h.time.symm, h.host.symm, fun name hname => (h.vars name hname).symm⟩

theorem trans (h : Alike names w w') (h' : Alike names w' w'') : Alike names w w'' :=
  ⟨h'.time.trans h.time, h'.host.trans h.host,
    fun name hname => (h'.vars name hname).trans (h.vars name hname)⟩

/-- Worlds that are alike on more variables are alike on fewer. -/
theorem mono (h : Alike names w w') (hsub : ∀ name, names' name → names name) :
    Alike names' w w' :=
  ⟨h.time, h.host, fun name hname => h.vars name (hsub name hname)⟩

/-- Other variables may be set. -/
theorem setVariable (w : World σ) {name : String} (hname : ¬ names name) (value : Value) :
    Alike names w (w.setVariable name value) := by
  refine ⟨rfl, rfl, ?_⟩
  intro other hother
  have hne : name ≠ other := fun heq => hname (heq ▸ hother)
  rw [value?, World.setVariable, Table.get?_insert, if_neg hne]
  rfl

/-- The same variable may be set to the same value in both. -/
theorem setVariable_both (h : Alike names w w') (name : String) (value : Value) :
    Alike names (w.setVariable name value) (w'.setVariable name value) := by
  refine ⟨h.time, h.host, ?_⟩
  intro other hother
  rw [value?, value?, World.setVariable, World.setVariable, Table.get?_insert, Table.get?_insert]
  split
  · rfl
  · exact h.vars other hother

end World.Alike

/-! ## Local runs -/

/-- Runs of the node read and write only variables of its own. -/
structure Definition.Local (d : Definition σ) (node : Node) : Prop where
  reads : ∀ (inputs : Inputs) (memory : Slot) (world world' : World σ),
    World.Alike (· ∈ node.variables) world world' →
    (d.run ⟨world', inputs, node, memory⟩).outputs =
        (d.run ⟨world, inputs, node, memory⟩).outputs ∧
      (d.run ⟨world', inputs, node, memory⟩).memory =
        (d.run ⟨world, inputs, node, memory⟩).memory ∧
      World.Alike (· ∈ node.variables) (d.run ⟨world, inputs, node, memory⟩).world
        (d.run ⟨world', inputs, node, memory⟩).world
  writes : ∀ (inputs : Inputs) (memory : Slot) (world : World σ),
    World.Alike (· ∉ node.variables) world (d.run ⟨world, inputs, node, memory⟩).world

/-- In worlds that look the same, however far, runs of the node leave worlds that look the same. -/
theorem Definition.Local.alike {d : Definition σ} {node : Node} (h : d.Local node)
    {names : String → Prop} (hsub : ∀ name ∈ node.variables, names name) {world world' : World σ}
    (halike : World.Alike names world world') (inputs : Inputs) (memory : Slot) :
    World.Alike names (d.run ⟨world, inputs, node, memory⟩).world
      (d.run ⟨world', inputs, node, memory⟩).world := by
  have hown := (h.reads inputs memory world world' (halike.mono hsub)).2.2
  refine ⟨hown.time, hown.host, ?_⟩
  intro name hname
  by_cases hmem : name ∈ node.variables
  · exact hown.vars name hmem
  · -- What the node does not name is what it was before, in both worlds.
    calc (d.run ⟨world', inputs, node, memory⟩).world.value? name
        = world'.value? name := (h.writes inputs memory world').vars name hmem
      _ = world.value? name := halike.vars name hname
      _ = (d.run ⟨world, inputs, node, memory⟩).world.value? name :=
        ((h.writes inputs memory world).vars name hmem).symm

namespace Kind

def entityFree : List KindName :=
  ["OnStart", "OnKey", "Every", "If", "SetVar", "AddVar", "GetVariable", "Compare"]

/-- Runs that do not change the world are local if their outcome is. -/
theorem local_of_world {d : Definition σ} {node : Node} (hworld : ∀ a, (d.run a).world = a.world)
    (hreads : ∀ (inputs : Inputs) (memory : Slot) (world world' : World σ),
      World.Alike (· ∈ node.variables) world world' →
      (d.run ⟨world', inputs, node, memory⟩).outputs =
          (d.run ⟨world, inputs, node, memory⟩).outputs ∧
        (d.run ⟨world', inputs, node, memory⟩).memory =
          (d.run ⟨world, inputs, node, memory⟩).memory) : d.Local node := by
  constructor
  case reads =>
    intro inputs memory world world' halike
    rcases hreads inputs memory world world' halike with ⟨houtputs, hmemory⟩
    refine ⟨houtputs, hmemory, ?_⟩
    rw [hworld, hworld]
    exact halike
  case writes =>
    intro inputs memory world
    rw [hworld]
    exact .refl _ world

/-- Kinds that deal with triggers and branches read no variable at all. -/
theorem local_onStart (node : Node) : (onStart : Definition σ).Local node := by
  refine local_of_world world_onStart ?_
  intro inputs memory world world' _
  rw [outputs_onStart, outputs_onStart, memory_onStart, memory_onStart]
  exact ⟨rfl, rfl⟩

theorem local_onKey [SceneHost σ] (node : Node) : (onKey : Definition σ).Local node := by
  refine local_of_world (fun a => world_onKey a) ?_
  intro inputs memory world world' halike
  rw [memory_onKey, memory_onKey]
  have hheld : ∀ key, world'.isKeyDown key = world.isKeyDown key := by
    intro key
    rw [World.isKeyDown, halike.host]
    rfl
  refine ⟨?_, rfl⟩
  simp only [onKey, hheld]
  split
  · rfl
  · split <;> rfl

theorem local_every (node : Node) : (every : Definition σ).Local node := by
  refine local_of_world world_every ?_
  intro inputs memory world world' halike
  rw [outputs_every, outputs_every, memory_every, memory_every, halike.time]
  exact ⟨rfl, rfl⟩

theorem local_branch (node : Node) : (branch : Definition σ).Local node :=
  local_of_world (fun _ => rfl) fun _ _ _ _ _ => ⟨rfl, rfl⟩

theorem local_compare (node : Node) : (compare : Definition σ).Local node := by
  refine local_of_world world_compare ?_
  intro inputs memory world world' _
  rw [memory_compare, memory_compare]
  refine ⟨?_, rfl⟩
  simp only [compare, operand]
  cases Comparison.parse? ((node.text? "operator").getD "==") with
  | none => rfl
  | some op => rfl

/-- A reader of a variable reads the one that it names. -/
theorem local_getVariable {node : Node} (hkind : node.kind = "GetVariable") :
    (getVariable : Definition σ).Local node := by
  refine local_of_world (fun _ => rfl) ?_
  intro inputs memory world world' halike
  have hvalue : world'.value? (variableName node "variable") =
      world.value? (variableName node "variable") :=
    halike.vars _ (by simp [Node.variables, hkind])
  refine ⟨?_, rfl⟩
  simp only [getVariable, hvalue]
  rfl

/-- A writer writes the one that it names, and nothing else. -/
theorem local_setVariable {node : Node} (hkind : node.kind = "SetVar") :
    (setVariable : Definition σ).Local node := by
  constructor
  case reads =>
    intro inputs memory world world' halike
    exact ⟨rfl, rfl, halike.setVariable_both _ _⟩
  case writes =>
    intro inputs memory world
    exact .setVariable world (by simp [Node.variables, hkind]) _

theorem local_addToVariable {node : Node} (hkind : node.kind = "AddVar") :
    (addToVariable : Definition σ).Local node := by
  constructor
  case reads =>
    intro inputs memory world world' halike
    have hvalue : world'.value? (variableName node "varName") =
        world.value? (variableName node "varName") :=
      halike.vars _ (by simp [Node.variables, hkind])
    simp only [addToVariable, hvalue]
    exact ⟨rfl, rfl, halike.setVariable_both _ _⟩
  case writes =>
    intro inputs memory world
    exact .setVariable world (by simp [Node.variables, hkind]) _

variable [SceneHost σ]

/-- The kinds that do not deal with entities are local. -/
theorem local_of_entityFree {d : Definition σ} (hd : d ∈ standard) {node : Node}
    (hkind : node.kind = d.kind) (hfree : node.kind ∈ entityFree) : d.Local node := by
  cases d, hd using standard_cases with
  | onStart => exact local_onStart node
  | onKey => exact local_onKey node
  | every => exact local_every node
  | branch => exact local_branch node
  | setVariable => exact local_setVariable hkind
  | addToVariable => exact local_addToVariable hkind
  | getVariable => exact local_getVariable hkind
  | compare => exact local_compare node
  | getEntity | spawn | destroy | resetGame =>
    rw [hkind] at hfree
    simp [entityFree, getEntity, spawn, destroy, resetGame] at hfree

end Kind

end GraphScript

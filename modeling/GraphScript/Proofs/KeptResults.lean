import GraphScript.Proofs.ExecutorRuns
import GraphScript.Proofs.PassPairs
import GraphScript.Proofs.StandardKinds

/-!
# KeptResults — keeping what pulls leave changes nothing

Under one policy a source runs anew for every connection, under the other one what it left is kept
until the end of the pass.  The two walks make different numbers of runs, so they are compared by a
relation between their states: all that is kept has to be what a run would leave at this very moment.

- `Catalogue.Steady` — kinds without side effects do nothing but look at parts of the world that no
  kind changes;
- `Pass.Agree` — the relation, with a condition for every kept result;
- `Executor.frames_memoized` — both policies lead to the same pushes, worlds and memories.

Results of pushes are not kept, so a push may find other inputs in its node and leave something else.
-/

namespace GraphScript

variable {σ α : Type}

def Event.pushes (events : List Event) : List Call := (Event.calls events).filter Call.isPush

/-- Without inputs, a run of the kind changes nothing, and what it leaves depends on its node and on
what the view shows of the world, and on nothing else. -/
structure Definition.Steady (d : Definition σ) (view : World σ → α) : Prop where
  world : ∀ a, a.inputs = {} → (d.run a).world = a.world
  memory : ∀ a, a.inputs = {} → (d.run a).memory = a.memory
  outputs : ∀ a b, a.inputs = {} → b.inputs = {} → a.node = b.node →
    view a.world = view b.world → (d.run a).outputs = (d.run b).outputs

/-- No run changes what the view shows of the world, and kinds without side effects are steady. -/
structure Catalogue.Steady (c : Catalogue σ) (view : World σ → α) : Prop where
  unchanged : ∀ kind d, c.get? kind = some d → ∀ a, view (d.run a).world = view a.world
  steady : ∀ kind d, c.get? kind = some d → d.sideEffects = false → d.Steady view

namespace Pass

variable {p q : Plan σ} {view : World σ → α} {s t : Pass σ}

/-- Pushes are told in the order in which they took place. -/
theorem pushes_reverse (s : Pass σ) :
    Event.pushes s.events.reverse = (s.calls.filter Call.isPush).reverse := by
  simp [Event.pushes, Event.calls, calls, List.filterMap_reverse]

/-- A walk that runs every source anew agrees with one that keeps results.  A kept result is one that
a run of the node would leave in a world that looks the same, and the node has a place for its memory. -/
structure Agree (p : Plan σ) (view : World σ → α) (s t : Pass σ) : Prop where
  world : t.world = s.world
  memories : t.memories = s.memories
  executed : t.executed = s.executed
  pushes : t.calls.filter Call.isPush = s.calls.filter Call.isPush
  place : ∀ id outputs, t.pulled.get? id = some outputs → ∃ slot, s.memories.get? id = some slot
  kept : ∀ id outputs, t.pulled.get? id = some outputs → ∀ node d,
    p.wiring.node? id = some node → p.catalogue.get? node.kind = some d →
    ∃ world memory, view world = view s.world ∧
      outputs = (d.run ⟨world, {}, node, memory⟩).outputs

namespace Agree

/-- What the walks tell besides runs does not set them apart. -/
theorem record (h : Agree p view s t) {e : Event} (he : e.isOwn = true) :
    Agree p view (s.record e) (t.record e) := by
  refine ⟨h.world, h.memories, h.executed, ?_, h.place, h.kept⟩
  rw [calls_record he, calls_record he]
  exact h.pushes

/-- A run from states that agree leads to states that agree, for it finds the same world and the same
memory. -/
theorem call (hp : p.catalogue.Steady view) (h : Agree p view s t) {node : Node} {d : Definition σ}
    (hd : p.catalogue.get? node.kind = some d) (cause : Cause) (inputs : Inputs) :
    (t.call d node cause inputs).1 = (s.call d node cause inputs).1 ∧
      Agree p view (s.call d node cause inputs).2 (t.call d node cause inputs).2 := by
  have houtcome : t.outcome d node inputs = s.outcome d node inputs := by
    rw [outcome, outcome, h.world, h.memories]
  have hview : view (s.outcome d node inputs).world = view s.world := hp.unchanged _ _ hd _
  refine ⟨congrArg Outcome.outputs houtcome, ?_⟩
  constructor
  case world => rw [call_world, call_world, houtcome]
  case memories => rw [call_memories, call_memories, houtcome, h.memories]
  case executed => rw [call_executed, call_executed, h.executed]
  case pushes =>
    rw [call_calls, call_calls, houtcome, List.filter_cons, List.filter_cons, h.pushes]
  case place =>
    intro id outputs hkept
    rw [call_pulled] at hkept
    rcases h.place id outputs hkept with ⟨slot, hslot⟩
    rw [call_memories, Table.get?_insert]
    split
    · exact ⟨_, rfl⟩
    · exact ⟨slot, hslot⟩
  case kept =>
    intro id outputs hkept node' d' hnode' hd'
    rw [call_pulled] at hkept
    rcases h.kept id outputs hkept node' d' hnode' hd' with ⟨world, memory, hworld, houtputs⟩
    -- The run may have changed the world, but nothing of what is seen of it.
    refine ⟨world, memory, ?_, houtputs⟩
    rw [call_world, hview]
    exact hworld

/-- A run without inputs of a kind without side effects leaves nothing behind but its own event, once
the node has a place for its memory. -/
theorem call_of_place (hp : p.catalogue.Steady view) (h : Agree p view s t) {node : Node}
    {d : Definition σ} (hd : p.catalogue.get? node.kind = some d) (hpure : d.sideEffects = false)
    (hplace : ∃ slot, s.memories.get? node.id = some slot) :
    Agree p view (s.call d node .pulled {}).2 t := by
  have hsteady := hp.steady _ _ hd hpure
  rcases hplace with ⟨slot, hslot⟩
  have hworld : (s.outcome d node {}).world = s.world := hsteady.world _ rfl
  have hmemory : (s.outcome d node {}).memory = slot := by
    calc (s.outcome d node {}).memory = (s.memories.get? node.id).getD none := hsteady.memory _ rfl
      _ = slot := by rw [hslot, Option.getD_some]
  have hmemories : (s.call d node .pulled {}).2.memories = s.memories := by
    rw [call_memories, hmemory, Table.insert_of_get? hslot]
  constructor
  case world => rw [call_world, hworld, h.world]
  case memories => rw [hmemories, h.memories]
  case executed => rw [call_executed, h.executed]
  case pushes =>
    rw [call_calls, List.filter_cons, h.pushes]
    rfl
  case place => rw [hmemories]; exact h.place
  case kept => rw [call_world, hworld]; exact h.kept

/-- What both walks have just pulled may be kept. -/
theorem keep (hp : p.catalogue.Steady view) (hkeyed : p.wiring.Keyed) (h : Agree p view s t)
    {id : NodeId} {node : Node} {d : Definition σ} (hnode : p.wiring.node? id = some node)
    (hd : p.catalogue.get? node.kind = some d) :
    Agree p view (s.call d node .pulled {}).2
      { (t.call d node .pulled {}).2 with
        pulled := t.pulled.insert node.id (t.call d node .pulled {}).1 } := by
  rcases h.call hp hd .pulled {} with ⟨houtputs, hcalled⟩
  have hview : view (s.outcome d node {}).world = view s.world := hp.unchanged _ _ hd _
  refine ⟨hcalled.world, hcalled.memories, hcalled.executed, hcalled.pushes, ?_, ?_⟩
  · intro other outputs hkept
    rw [Table.get?_insert] at hkept
    split at hkept
    · rename_i heq
      rw [call_memories, Table.get?_insert, if_pos heq]
      exact ⟨_, rfl⟩
    · exact hcalled.place other outputs (by rw [call_pulled]; exact hkept)
  · intro other outputs hkept node' d' hnode' hd'
    rw [Table.get?_insert] at hkept
    split at hkept
    · -- The node is the only one under its id, and the result is that of the run before.
      rename_i heq
      have hid : other = id := by rw [← heq, hkeyed id node hnode]
      obtain rfl : node = node' := by
        rw [hid] at hnode'
        exact Option.some.inj (hnode.symm.trans hnode')
      obtain rfl : d = d' := Option.some.inj (hd.symm.trans hd')
      refine ⟨s.world, (s.memories.get? node.id).getD none, ?_, ?_⟩
      · rw [call_world]
        exact hview.symm
      · rw [Option.some.injEq] at hkept
        rw [← hkept, houtputs]
        rfl
    · exact hcalled.kept other outputs (by rw [call_pulled]; exact hkept) node' d' hnode' hd'

end Agree

/-- Wherever the walks are, they agree. -/
theorem pairing_memoized {w : Wiring} {c : Catalogue σ} (maxDepth : Nat) (hkeyed : w.Keyed)
    (hc : c.Steady view) :
    Pairing ⟨w, c, ⟨.reinvoke, maxDepth⟩⟩ ⟨w, c, ⟨.memoizePerPass, maxDepth⟩⟩ (fun _ => True)
      (fun _ => true) (fun _ => True) (Agree ⟨w, c, ⟨.reinvoke, maxDepth⟩⟩ view) := by
  constructor
  case maxDepth => rfl
  case outgoing => intro id _; exact (List.filter_true _).symm
  case incoming => intro id _; exact (List.filter_true _).symm
  case target => intro _ _ _ _ _; exact ⟨rfl, fun _ _ => trivial⟩
  case source => intro _ _ _ _ _; exact ⟨rfl, fun _ _ => trivial⟩
  case kind => intro _ _ _ _; rfl
  case executed => intro s t id _ h; rw [h.executed]
  case told => intro s t e htells h; exact h.record htells.isOwn
  case entered =>
    intro s t id node d inputs depth hnode _ hd _ h
    have hmarked : Agree ⟨w, c, ⟨.reinvoke, maxDepth⟩⟩ view
        { s with executed := node.id :: s.executed } { t with executed := node.id :: t.executed } :=
      ⟨h.world, h.memories, congrArg (node.id :: ·) h.executed, h.pushes, h.place, h.kept⟩
    exact hmarked.call hc hd (.pushed depth) inputs
  case pulled =>
    intro s t id conn source d _ hsource _ hd _ h
    have hplain : pull ⟨w, c, ⟨.reinvoke, maxDepth⟩⟩ d source s = s.call d source .pulled {} := by
      simp [pull]
    rw [hplain]
    cases hpure : d.sideEffects with
    | true =>
      -- Results of kinds with side effects are never kept.
      have hagain : pull ⟨w, c, ⟨.memoizePerPass, maxDepth⟩⟩ d source t =
          t.call d source .pulled {} := by
        simp [pull, hpure]
      rw [hagain]
      exact h.call hc hd .pulled {}
    | false =>
      cases hkept : t.pulled.get? source.id with
      | none =>
        have hfirst : pull ⟨w, c, ⟨.memoizePerPass, maxDepth⟩⟩ d source t =
            ((t.call d source .pulled {}).1, { (t.call d source .pulled {}).2 with
              pulled := t.pulled.insert source.id (t.call d source .pulled {}).1 }) := by
          simp [pull, hpure, hkept]
        rw [hfirst]
        exact ⟨(h.call hc hd .pulled {}).1, h.keep hc hkeyed hsource hd⟩
      | some outputs =>
        have hlater : pull ⟨w, c, ⟨.memoizePerPass, maxDepth⟩⟩ d source t = (outputs, t) := by
          simp [pull, hpure, hkept]
        have hnode : w.node? source.id = some source := by
          rw [hkeyed conn.fromNode source hsource]
          exact hsource
        rcases h.kept source.id outputs hkept source d hnode hd with ⟨world, memory, hworld, hleft⟩
        rw [hlater]
        refine ⟨?_, h.call_of_place hc hd hpure (h.place source.id outputs hkept)⟩
        -- The kept result was left in a world that looked the same.
        rw [hleft]
        exact (hc.steady _ _ hd hpure).outputs _ _ rfl rfl rfl hworld
  case undelivered => intro _ _ _ _ _ _ _ hkeep; cases hkeep
  case unfollowed => intro _ _ _ _ _ _ _ _ _ _ _ hkeep; cases hkeep

end Pass

/-- If kinds without side effects are steady, both policies lead to the same pushes with the same
inputs and outputs, and to the same worlds and memories, in any number of passes from any state. -/
theorem Executor.frames_memoized (g : Graph) (c : Catalogue σ) (maxDepth : Nat)
    (view : World σ → α) (hc : c.Steady view) (memories : Table NodeId Slot) (frame : Nat)
    (world : World σ) (hosts : List (World σ → World σ)) :
    SameFrames Event.pushes
      (frames { (ofGraph g c ⟨.reinvoke, maxDepth⟩).1 with memories, frame } world hosts)
      (frames { (ofGraph g c ⟨.memoizePerPass, maxDepth⟩).1 with memories, frame } world hosts) := by
  have hkeyed : (Wiring.ofGraph g).Keyed := Wiring.keyed_ofGraph g
  refine frames_agree (fun _ => True) ?_ hosts _ _ world ⟨rfl, rfl⟩ ⟨rfl, rfl⟩ rfl rfl
    (fun _ _ _ _ => trivial)
  intro world memories _
  have hstart : Pass.Agree ⟨Wiring.ofGraph g, c, ⟨.reinvoke, maxDepth⟩⟩ view { world, memories }
      { world, memories } := by
    refine ⟨rfl, rfl, rfl, rfl, ?_, ?_⟩
    · intro id outputs hkept
      cases hkept
    · intro id outputs hkept
      cases hkept
  have hend := (Pass.pairing_memoized maxDepth hkeyed hc).pass
    ((Wiring.ofGraph g).startNodes c) (fun _ _ => rfl) hstart (fun _ _ => trivial)
  refine ⟨hend.world, hend.memories, ?_⟩
  rw [Pass.pushes_reverse, Pass.pushes_reverse]
  exact congrArg List.reverse hend.pushes

/-! ## Keys and variables -/

/-- A catalogue with one kind that has no side effects, and one that has. -/
def Catalogue.keysAndVariables : Catalogue HeadlessScene :=
  (Catalogue.registerAll ∅ [Kind.onKey, Kind.setVariable]).1

/-- Nothing that a node does moves a key. -/
theorem Catalogue.steady_keysAndVariables :
    keysAndVariables.Steady fun w => w.host.held := by
  have hmem : ∀ kind d, keysAndVariables.get? kind = some d →
      d = Kind.onKey ∨ d = Kind.setVariable := by
    intro kind d hd
    rcases get?_registerAll hd with hnone | ⟨hmem, -⟩
    · cases hnone
    · simpa using hmem
  have hworld : ∀ a : Activation HeadlessScene, (Kind.onKey.run a).world = a.world :=
    fun a => Kind.world_onKey a
  constructor
  case unchanged =>
    intro kind d hd a
    rcases hmem kind d hd with rfl | rfl
    · rw [hworld]
    · rfl
  case steady =>
    intro kind d hd hpure
    rcases hmem kind d hd with rfl | rfl
    · constructor
      case world => exact fun a _ => hworld a
      case memory =>
        intro a _
        simp only [Kind.onKey]
        split
        · rfl
        · split <;> rfl
      case outputs =>
        rintro ⟨w, i, n, m⟩ ⟨w', i', n', m'⟩ - - rfl hheld
        have hheld : w.host.held = w'.host.held := hheld
        have hdown : ∀ key, w.isKeyDown key = w'.isKeyDown key := fun key => congrFun hheld key
        simp only [Kind.onKey, hdown]
        split
        · rfl
        · split <;> rfl
    · cases hpure

/-- While a key is held, its name goes into two variables. -/
def Graph.keyTwice : Graph where
  nodes := [.ofKind "key" "OnKey", (Node.ofKind "a" "SetVar").withProperty "varName" (.text "a"),
    (Node.ofKind "b" "SetVar").withProperty "varName" (.text "b")]
  connections :=
    [⟨"1", "key", "exec", "a", "exec"⟩, ⟨"2", "key", "key", "a", "value"⟩,
     ⟨"3", "a", "exec", "b", "exec"⟩, ⟨"4", "key", "key", "b", "value"⟩]

def World.pressSpace (w : World HeadlessScene) : World HeadlessScene :=
  { w with host := w.host.setKey .space true }

def Executor.ofKeyTwice (policy : PullPolicy) : Executor HeadlessScene :=
  { (ofGraph Graph.keyTwice .keysAndVariables ⟨policy, 8⟩).1 with memories := ∅, frame := 0 }

/-- In a frame the key is pulled four times for the two variables. Keeping what it left spares three of
the runs; the pushes are the same, and both variables hold the name of the key at the end. -/
theorem Executor.frames_keyTwice :
    let plain := (ofKeyTwice .reinvoke).frames (World.ofHost {} ⟨fun _ => "", 0⟩)
      [World.pressSpace, id]
    let keeping := (ofKeyTwice .memoizePerPass).frames (World.ofHost {} ⟨fun _ => "", 0⟩)
      [World.pressSpace, id]
    (Catalogue.keysAndVariables.Steady fun w => w.host.held) ∧
      SameFrames Event.pushes plain keeping ∧
      plain.2.2.map (fun events => (Event.calls events).map (·.node.id)) =
        List.replicate 2 ["key", "key", "a", "key", "b", "key", "key"] ∧
      keeping.2.2.map (fun events => (Event.calls events).map (·.node.id)) =
        List.replicate 2 ["key", "key", "a", "b"] ∧
      keeping.2.1.vars.entries = [("a", .text "SPACE"), ("b", .text "SPACE")] := by
  intro plain keeping
  refine ⟨Catalogue.steady_keysAndVariables,
    frames_memoized Graph.keyTwice _ 8 _ Catalogue.steady_keysAndVariables ∅ 0 _ _, ?_, ?_, ?_⟩
  all_goals decide +kernel

end GraphScript

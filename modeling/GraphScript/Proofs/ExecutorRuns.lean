import GraphScript.Executor
import GraphScript.Proofs.PassSteps
import GraphScript.Proofs.WiringLists

/-!
# ExecutorRuns — executors between their passes

- `Executor.after` is an executor after any passes and resets. The world of a pass is whatever the
  host hands in, so nothing is assumed about what happens to it between passes.
- `Executor.runs` are the runs of nodes in one pass, in order.
- `Executor.frames` makes one pass after the other; `Executor.frames_agree` compares two executors
  that agree in every single pass.
- `Pass.Reason` and `Pass.Step.run_cases`: each step runs at most one node, and why it does.
- `Plan.own_runs`: what a node remembers and what it ran for depends on its own runs only.
- `Plan.genuine_of_mem_calls`: a run leaves what its kind makes of an activation.
-/

namespace GraphScript

variable {σ : Type}

abbrev Graph.plan (g : Graph) (c : Catalogue σ) (config : ExecutorConfig) : Plan σ :=
  ⟨Wiring.ofGraph g, c, config⟩

/-! ## Passes and resets -/

/-- Runs are told in the order in which they took place. -/
theorem Pass.calls_reverse (s : Pass σ) : Event.calls s.events.reverse = s.calls.reverse :=
  List.filterMap_reverse

theorem Pass.mem_calls_reverse {s : Pass σ} {call : Call} :
    call ∈ Event.calls s.events.reverse ↔ call ∈ s.calls := by
  rw [calls_reverse, List.mem_reverse]

namespace Executor

inductive Turn (σ : Type) where
  | pass (world : World σ)
  | reset

def turn (e : Executor σ) : Turn σ → Executor σ
  | .pass world => (e.execute world).1
  | .reset => e.reset.1

def after (e : Executor σ) (turns : List (Turn σ)) : Executor σ := turns.foldl turn e

def runs (e : Executor σ) (world : World σ) : List Call := Event.calls (e.execute world).2.2

/-- The state at the end of a pass of an executor for the graph, with the given memories. -/
def passEnd (g : Graph) (c : Catalogue σ) (config : ExecutorConfig) (world : World σ)
    (memories : Table NodeId Slot) : Pass σ :=
  (⟨Wiring.ofGraph g, c, config⟩ : Plan σ).pass ((Wiring.ofGraph g).startNodes c) world memories

/-- Neither passes nor resets change what is run. -/
theorem after_plan (e : Executor σ) (turns : List (Turn σ)) :
    (e.after turns).plan = e.plan ∧ (e.after turns).startNodes = e.startNodes := by
  induction turns generalizing e with
  | nil => exact ⟨rfl, rfl⟩
  | cons t turns ih =>
    rcases ih (e.turn t) with ⟨hplan, hstarts⟩
    cases t with
    | pass world => exact ⟨hplan, hstarts⟩
    | reset => exact ⟨hplan, hstarts⟩

/-- The runs of a pass are those that it told of, first one first. -/
theorem runs_eq (e : Executor σ) (world : World σ) :
    e.runs world = (e.plan.pass e.startNodes world e.memories).calls.reverse :=
  Pass.calls_reverse _

/-- Whatever came before a pass is in the memories with which it starts. -/
theorem runs_after (g : Graph) (c : Catalogue σ) (config : ExecutorConfig) (turns : List (Turn σ))
    (world : World σ) :
    ((ofGraph g c config).1.after turns).runs world =
      (passEnd g c config world ((ofGraph g c config).1.after turns).memories).calls.reverse := by
  rcases (ofGraph g c config).1.after_plan turns with ⟨hplan, hstarts⟩
  rw [runs_eq, hplan, hstarts]
  rfl

/-- An executor with the plan of the graph makes the pass of the graph from its own memories. -/
theorem execute_eq {g : Graph} {c : Catalogue σ} {config : ExecutorConfig} {e : Executor σ}
    (hplan : e.plan = g.plan c config ∧ e.startNodes = (Wiring.ofGraph g).startNodes c)
    (world : World σ) :
    e.execute world =
      ({ e with memories := (passEnd g c config world e.memories).memories, frame := e.frame + 1 },
        (passEnd g c config world e.memories).world,
        (passEnd g c config world e.memories).events.reverse) := by
  rw [execute, hplan.1, hplan.2]
  rfl

theorem events_after (g : Graph) (c : Catalogue σ) (config : ExecutorConfig)
    (turns : List (Turn σ)) (world : World σ) :
    (((ofGraph g c config).1.after turns).execute world).2.2 =
      (passEnd g c config world ((ofGraph g c config).1.after turns).memories).events.reverse := by
  rw [execute_eq ((ofGraph g c config).1.after_plan turns)]

/-- A pass leaves behind the memories with which it ends. -/
theorem memories_after_pass (g : Graph) (c : Catalogue σ) (config : ExecutorConfig)
    (turns : List (Turn σ)) (world : World σ) :
    ((ofGraph g c config).1.after (turns ++ [.pass world])).memories =
      (passEnd g c config world ((ofGraph g c config).1.after turns).memories).memories := by
  rw [after, List.foldl_concat, ← after, turn, execute_eq ((ofGraph g c config).1.after_plan turns)]

/-! ## One pass after the other -/

/-- Passes in a row, with what happens in each of them. Before a pass the host may change the world:
it advances the clock, for instance. -/
def frames (e : Executor σ) (world : World σ) :
    List (World σ → World σ) → Executor σ × World σ × List (List Event)
  | [] => (e, world, [])
  | host :: hosts =>
    let (e, world, events) := e.execute (host world)
    let (e, world, more) := e.frames world hosts
    (e, world, events :: more)

theorem frames_cons (e : Executor σ) (world : World σ) (host : World σ → World σ)
    (hosts : List (World σ → World σ)) :
    e.frames world (host :: hosts) =
      let rest := (e.execute (host world)).1.frames (e.execute (host world)).2.1 hosts
      (rest.1, rest.2.1, (e.execute (host world)).2.2 :: rest.2.2) := rfl

/-- What holds of the events of every single pass holds of those in a row of passes. -/
theorem frames_forall {P : List Event → Prop} {p : Plan σ} {starts : List NodeId}
    (hpass : ∀ world memories, P (p.pass starts world memories).events.reverse)
    (hosts : List (World σ → World σ)) (e : Executor σ) (world : World σ)
    (hplan : e.plan = p ∧ e.startNodes = starts) : ∀ events ∈ (e.frames world hosts).2.2, P events := by
  induction hosts generalizing e world with
  | nil =>
    intro events hevents
    cases hevents
  | cons host hosts ih =>
    rcases hplan with ⟨rfl, rfl⟩
    rw [frames_cons]
    intro events hevents
    rcases List.mem_cons.1 hevents with rfl | hevents
    · exact hpass (host world) e.memories
    · exact ih (e.execute (host world)).1 (e.execute (host world)).2.1 ⟨rfl, rfl⟩ events hevents

/-- The world, the memories, the number of passes and some view of the events of each pass are the
same in two rows of passes. -/
structure SameFrames {β : Type} (view : List Event → β)
    (r r' : Executor σ × World σ × List (List Event)) : Prop where
  world : r'.2.1 = r.2.1
  memories : r'.1.memories = r.1.memories
  frame : r'.1.frame = r.1.frame
  events : r'.2.2.map view = r.2.2.map view

/-- Executors that agree in every single pass agree in rows of passes. It is enough that they agree
in passes of the first one in which nothing but good events happens. -/
theorem frames_agree {β : Type} {view : List Event → β} (good : Event → Prop) {p q : Plan σ}
    {starts starts' : List NodeId}
    (hpass : ∀ world memories, (∀ e ∈ (p.pass starts world memories).events, good e) →
      (q.pass starts' world memories).world = (p.pass starts world memories).world ∧
      (q.pass starts' world memories).memories = (p.pass starts world memories).memories ∧
      view (q.pass starts' world memories).events.reverse =
        view (p.pass starts world memories).events.reverse)
    (hosts : List (World σ → World σ)) (e e' : Executor σ) (world : World σ)
    (hplan : e.plan = p ∧ e.startNodes = starts) (hplan' : e'.plan = q ∧ e'.startNodes = starts')
    (hmemories : e'.memories = e.memories) (hframe : e'.frame = e.frame)
    (hgood : ∀ events ∈ (e.frames world hosts).2.2, ∀ event ∈ events, good event) :
    SameFrames view (e.frames world hosts) (e'.frames world hosts) := by
  induction hosts generalizing e e' world with
  | nil => exact ⟨rfl, hmemories, hframe, rfl⟩
  | cons host hosts ih =>
    rcases hplan with ⟨rfl, rfl⟩
    rcases hplan' with ⟨rfl, rfl⟩
    have hfirst : ∀ event ∈ (e.plan.pass e.startNodes (host world) e.memories).events,
        good event := by
      intro event hevent
      exact hgood _ List.mem_cons_self event (List.mem_reverse.2 hevent)
    rcases hpass (host world) e.memories hfirst with ⟨hworld, hmemories', hview⟩
    -- The second executor begins the rest where the first one does.
    have hworld' : (e'.execute (host world)).2.1 = (e.execute (host world)).2.1 := by
      rw [execute, hmemories]
      exact hworld
    have hrest := ih (e.execute (host world)).1 (e'.execute (host world)).1
      (e.execute (host world)).2.1 ⟨rfl, rfl⟩ ⟨rfl, rfl⟩
      (by rw [execute, hmemories]; exact hmemories') (by rw [execute, execute, hframe])
      (fun events hevents => hgood events (List.mem_cons_of_mem _ hevents))
    have hviews : view (e'.execute (host world)).2.2 = view (e.execute (host world)).2.2 := by
      rw [execute, hmemories]
      exact hview
    rw [frames_cons, frames_cons, hworld']
    refine ⟨hrest.world, hrest.memories, hrest.frame, ?_⟩
    rw [List.map_cons, List.map_cons, hviews, hrest.events]

end Executor

def Wiring.Keyed (w : Wiring) : Prop := ∀ id n, w.node? id = some n → n.id = id

/-- A prepared graph has each node under its own id. -/
theorem Wiring.keyed_ofGraph (g : Graph) : (ofGraph g).Keyed := by
  intro id n hn
  rw [node?_ofGraph] at hn
  exact Graph.id_of_node? hn

namespace Pass

/-! ## Why nodes run -/

/-- Why the next run of a pass takes place, and with which inputs. -/
inductive Reason (p : Plan σ) (starts : List NodeId) (s : Pass σ) (d : Definition σ) :
    Call → Prop where
  | pulled {node : Node} {outputs : Option Outputs} {target : NodeId} {conn : Connection}
      (hconn : conn ∈ p.wiring.connectionsTo target) (hfrom : conn.fromNode = node.id)
      (hport : d.isControlOutput conn.fromPort = false) :
      Reason p starts s d ⟨node, .pulled, {}, outputs⟩
  | pushed {node : Node} {inputs : Inputs} {outputs : Option Outputs} {conn : Connection}
      {depth : Nat} (hopen : Opened p s.calls conn depth) (hto : conn.toNode = node.id)
      (hmay : MayEnter d node s) (hdepth : depth + 1 ≤ p.config.maxDepth) :
      Reason p starts s d ⟨node, .pushed (depth + 1), inputs, outputs⟩
  | started {node : Node} {outputs : Option Outputs} (hid : node.id ∈ starts)
      (hmay : MayEnter d node s) :
      Reason p starts s d ⟨node, .pushed 0, {}, outputs⟩

variable {p : Plan σ} {starts : List NodeId} {s t : Pass σ}

/-- A step runs no node, or one node of the graph for a reason; a push leaves a mark. -/
theorem Step.run_cases (hkeyed : p.wiring.Keyed) (h : Step p starts s t) :
    (t.calls = s.calls ∧ t.executed = s.executed) ∨
      ∃ call d, t.calls = call :: s.calls ∧
        t.executed = (if call.isPush then call.node.id :: s.executed else s.executed) ∧
        p.wiring.node? call.node.id = some call.node ∧
        p.catalogue.get? call.node.kind = some d ∧ Reason p starts s d call := by
  cases h with
  | pull h =>
    cases h with
    | told e he => exact Or.inl ⟨calls_record he, rfl⟩
    | kept id outputs => exact Or.inl ⟨rfl, rfl⟩
    | @pulled target conn source d hconn hsource hd hport =>
      -- The steps look nodes up under the ends of connections; runs are told with the node itself.
      have hid : source.id = conn.fromNode := hkeyed _ _ hsource
      refine Or.inr ⟨_, d, call_calls _ _ _ _ _, call_executed _ _ _ _ _, ?_, hd, ?_⟩
      · exact hid ▸ hsource
      · exact .pulled hconn hid.symm hport
  | @pushed conn depth node d inputs hopen hnode hd hmay hdepth =>
    have hid : node.id = conn.toNode := hkeyed _ _ hnode
    refine Or.inr ⟨_, d, enter_calls _ _ _ _ _, enter_executed _ _ _ _ _, ?_, hd, ?_⟩
    · exact hid ▸ hnode
    · exact .pushed hopen hid.symm hmay hdepth
  | @started id node d hid hnode hd hmay =>
    have hid' : node.id = id := hkeyed _ _ hnode
    refine Or.inr ⟨_, d, enter_calls _ _ _ _ _, enter_executed _ _ _ _ _, ?_, hd, ?_⟩
    · exact hid' ▸ hnode
    · exact .started (hid' ▸ hid) hmay

end Pass

/-! ## Runs of one node -/

namespace Pass

def callsOf (s : Pass σ) (id : NodeId) : List Call := s.calls.filter (·.node.id = id)

/-- The memory that the next run of a node finds. -/
def memoryOf (s : Pass σ) (id : NodeId) : Slot := (s.memories.get? id).getD none

section

variable (s : Pass σ) (d : Definition σ) (node : Node) (cause : Cause) (inputs : Inputs)

theorem callsOf_record {e : Event} (h : e.isOwn = true) (id : NodeId) :
    (s.record e).callsOf id = s.callsOf id :=
  congrArg (List.filter _) (calls_record h)

/-- A run of the node is its last one so far. -/
theorem callsOf_call_self :
    (s.call d node cause inputs).2.callsOf node.id =
      ⟨node, cause, inputs, (s.outcome d node inputs).outputs⟩ :: s.callsOf node.id := by
  simp [callsOf]

/-- Runs of other nodes do not count. -/
theorem callsOf_call_other {id : NodeId} (h : node.id ≠ id) :
    (s.call d node cause inputs).2.callsOf id = s.callsOf id := by
  simp [callsOf, h]

/-- The next run of the node finds what this one has left. -/
theorem memoryOf_call_self :
    (s.call d node cause inputs).2.memoryOf node.id = (s.outcome d node inputs).memory := by
  rw [memoryOf, call_memories, Table.get?_insert, if_pos rfl, Option.getD_some]

/-- Runs of other nodes leave its memory alone. -/
theorem memoryOf_call_other {id : NodeId} (h : node.id ≠ id) :
    (s.call d node cause inputs).2.memoryOf id = s.memoryOf id := by
  rw [memoryOf, call_memories, Table.get?_insert, if_neg h]
  rfl

end

end Pass

/-- What each run of a node preserves, seen from its runs before and from its memory, a pass preserves:
runs of other nodes leave both alone. -/
theorem Plan.own_runs {p : Plan σ} (hkeyed : p.wiring.Keyed) {node : Node} {d : Definition σ}
    (hnode : p.wiring.node? node.id = some node) (hd : p.catalogue.get? node.kind = some d)
    {R : List Call → Slot → Prop}
    (hrun : ∀ a : Activation σ, a.node = node → ∀ cause calls, R calls a.memory →
      R (⟨node, cause, a.inputs, (d.run a).outputs⟩ :: calls) (d.run a).memory)
    (starts : List NodeId) {world : World σ} {memories : Table NodeId Slot}
    (hstart : R [] ((memories.get? node.id).getD none)) :
    R ((p.pass starts world memories).callsOf node.id)
      ((p.pass starts world memories).memoryOf node.id) := by
  refine p.invariant_of_calls (I := fun s => R (s.callsOf node.id) (s.memoryOf node.id)) ?_
    (fun _ _ _ hs => hs) (fun _ _ hs => hs) ?_ starts hstart
  · intro s e he hs
    rw [s.callsOf_record he]
    exact hs
  · intro s id other d' cause inputs hother hd' hs
    by_cases hid : other.id = node.id
    · -- There is one node under the id.
      have hsame : p.wiring.node? node.id = some other := by
        rw [← hid, hkeyed _ _ hother]
        exact hother
      obtain rfl : node = other := Option.some.inj (hnode.symm.trans hsame)
      obtain rfl : d = d' := Option.some.inj (hd.symm.trans hd')
      rw [Pass.callsOf_call_self, Pass.memoryOf_call_self]
      exact hrun ⟨s.world, inputs, node, s.memoryOf node.id⟩ rfl cause _ hs
    · rw [Pass.callsOf_call_other _ _ _ _ _ hid, Pass.memoryOf_call_other _ _ _ _ _ hid]
      exact hs

/-- The run left what its kind makes of some activation of its node with its inputs. -/
def Call.Genuine (call : Call) (c : Catalogue σ) : Prop :=
  ∃ d a, c.get? call.node.kind = some d ∧ a.node = call.node ∧ a.inputs = call.inputs ∧
    call.outputs = (d.run a).outputs

/-- Every run of a pass is a genuine one. -/
theorem Plan.genuine_of_mem_calls {p : Plan σ} {starts : List NodeId} {world : World σ}
    {memories : Table NodeId Slot} {call : Call}
    (hcall : call ∈ (p.pass starts world memories).calls) : call.Genuine p.catalogue := by
  refine p.invariant_pass (I := fun s => ∀ call ∈ s.calls, call.Genuine p.catalogue) ?_
    (fun _ _ _ hs => hs) (fun _ _ hs => hs) ?_ starts (fun _ h => absurd h List.not_mem_nil) call
    hcall
  · intro s e he hs
    rw [Pass.calls_record he]
    exact hs
  · intro s d node cause inputs hd hs call hcall
    rw [Pass.call_calls, List.mem_cons] at hcall
    rcases hcall with rfl | hcall
    · exact ⟨d, _, hd, rfl, rfl, rfl⟩
    · exact hs call hcall

end GraphScript

import GraphScript.Proofs.ExecutorRuns
import GraphScript.Proofs.LocalKinds
import GraphScript.Proofs.MergedGraphs
import GraphScript.Proofs.PassPairs
import GraphScript.Proofs.Pushes

/-!
# SeparateGraphs — unrelated parts of a graph do not interfere

All parts of a graph share one table of variables, one of memories, one of kept results and one list of
marks.  If two graphs use different ids and different variables, and none of their nodes deals with
entities, then in a graph that is made of both each part runs as it would alone.

- `Pass.Same` — two walks show the same of some nodes and of some variables;
- `Pass.pairing_part` — inside its part, the walk through the whole graph goes on as the one through the
  part alone;
- `Pass.pairing_other` — meanwhile the other part leaves alone what the first one shows;
- `Executor.frames_merged` — so whole rows of passes show the same of the part.
-/

namespace GraphScript

variable {σ : Type}

namespace Pass

/-! ## What walks show of a part -/

def callsIn (s : Pass σ) (ids : NodeId → Prop) [DecidablePred ids] : List Call :=
  s.calls.filter fun call => ids call.node.id

/-- Both walks show the same of some nodes and of some variables. -/
structure Same (ids : NodeId → Prop) [DecidablePred ids] (names : String → Prop) (s t : Pass σ) :
    Prop where
  world : World.Alike names s.world t.world
  memories : ∀ id, ids id → t.memories.get? id = s.memories.get? id
  executed : ∀ id, ids id → (id ∈ t.executed ↔ id ∈ s.executed)
  pulled : ∀ id, ids id → t.pulled.get? id = s.pulled.get? id
  calls : t.callsIn ids = s.callsIn ids

variable {p q : Plan σ} {ids : NodeId → Prop} [DecidablePred ids] {names : String → Prop}
  {s t u : Pass σ} {node : Node} {d : Definition σ}

namespace Same

theorem refl (s : Pass σ) : Same ids names s s :=
  ⟨.refl names s.world, fun _ _ => rfl, fun _ _ => Iff.rfl, fun _ _ => rfl, rfl⟩

theorem symm (h : Same ids names s t) : Same ids names t s :=
  ⟨h.world.symm, fun id hid => (h.memories id hid).symm, fun id hid => (h.executed id hid).symm,
    fun id hid => (h.pulled id hid).symm, h.calls.symm⟩

theorem trans (h : Same ids names s t) (h' : Same ids names t u) : Same ids names s u :=
  ⟨h.world.trans h'.world, fun id hid => (h'.memories id hid).trans (h.memories id hid),
    fun id hid => (h'.executed id hid).trans (h.executed id hid),
    fun id hid => (h'.pulled id hid).trans (h.pulled id hid), h'.calls.trans h.calls⟩

/-- What a pass tells by itself is no run. -/
theorem record_right (s : Pass σ) {e : Event} (he : e.isOwn = true) :
    Same ids names s (s.record e) :=
  ⟨.refl names s.world, fun _ _ => rfl, fun _ _ => Iff.rfl, fun _ _ => rfl,
    congrArg (List.filter _) (calls_record he)⟩

theorem record (h : Same ids names s t) {e : Event} (he : e.isOwn = true) :
    Same ids names (s.record e) (t.record e) :=
  (record_right s he).symm.trans (h.trans (record_right t he))

/-! ### Inside the part -/

/-- A run inside the part sees nothing but the part. -/
theorem call (h : Same ids names s t) (hin : ids node.id) (hlocal : d.Local node)
    (hnames : ∀ name ∈ node.variables, names name) (cause : Cause) (inputs : Inputs) :
    (t.call d node cause inputs).1 = (s.call d node cause inputs).1 ∧
      Same ids names (s.call d node cause inputs).2 (t.call d node cause inputs).2 := by
  have hslot : (t.memories.get? node.id).getD none = (s.memories.get? node.id).getD none := by
    rw [h.memories _ hin]
  rcases hlocal.reads inputs ((s.memories.get? node.id).getD none) s.world t.world
    (h.world.mono hnames) with ⟨houtputs, hmemory, -⟩
  have hworld := hlocal.alike hnames h.world inputs ((s.memories.get? node.id).getD none)
  -- The run starts with the same memory in both, since its node is in the part.
  have houtputs : (t.outcome d node inputs).outputs = (s.outcome d node inputs).outputs := by
    rw [outcome, hslot]
    exact houtputs
  have hmemory : (t.outcome d node inputs).memory = (s.outcome d node inputs).memory := by
    rw [outcome, hslot]
    exact hmemory
  refine ⟨houtputs, ?_⟩
  constructor
  case world =>
    rw [call_world, call_world, outcome, outcome, hslot]
    exact hworld
  case memories =>
    intro id hid
    rw [call_memories, call_memories, Table.get?_insert, Table.get?_insert, hmemory,
      h.memories id hid]
  case executed =>
    intro id hid
    rw [call_executed, call_executed]
    exact h.executed id hid
  case pulled =>
    intro id hid
    rw [call_pulled, call_pulled]
    exact h.pulled id hid
  case calls =>
    have hcalls : t.calls.filter (fun call => decide (ids call.node.id)) =
        s.calls.filter (fun call => decide (ids call.node.id)) := h.calls
    rw [callsIn, callsIn, call_calls, call_calls, houtputs, List.filter_cons, List.filter_cons,
      hcalls]

/-- A push inside the part sees nothing but the part. -/
theorem enter (h : Same ids names s t) (hin : ids node.id) (hlocal : d.Local node)
    (hnames : ∀ name ∈ node.variables, names name) (depth : Nat) (inputs : Inputs) :
    (t.enter d node depth inputs).1 = (s.enter d node depth inputs).1 ∧
      Same ids names (s.enter d node depth inputs).2 (t.enter d node depth inputs).2 := by
  have hmarked : Same ids names { s with executed := node.id :: s.executed }
      { t with executed := node.id :: t.executed } := by
    refine ⟨h.world, h.memories, ?_, h.pulled, h.calls⟩
    intro id hid
    rw [List.mem_cons, List.mem_cons, h.executed id hid]
  exact hmarked.call hin hlocal hnames (.pushed depth) inputs

/-- So does a pull. -/
theorem pull (h : Same ids names s t) (hpolicy : q.config.pullPolicy = p.config.pullPolicy)
    (hin : ids node.id) (hlocal : d.Local node) (hnames : ∀ name ∈ node.variables, names name) :
    (pull q d node t).1 = (pull p d node s).1 ∧
      Same ids names (pull p d node s).2 (pull q d node t).2 := by
  refine pull_rel hpolicy (h.pulled _ hin) h (h.call hin hlocal hnames .pulled {}) ?_
  intro s t outputs h
  refine ⟨h.world, h.memories, h.executed, ?_, h.calls⟩
  intro id hid
  simp only [Table.get?_insert, h.pulled id hid]

/-! ### Outside the part -/

/-- A run outside the part leaves alone what the part shows. -/
theorem call_right (s : Pass σ) (hout : ¬ ids node.id) (hlocal : d.Local node)
    (hnames : ∀ name ∈ node.variables, ¬ names name) (cause : Cause) (inputs : Inputs) :
    Same ids names s (s.call d node cause inputs).2 := by
  have hne : ∀ id, ids id → node.id ≠ id := fun id hid heq => hout (heq ▸ hid)
  constructor
  case world =>
    rw [call_world]
    exact (hlocal.writes _ _ _).mono fun name hname hmem => hnames name hmem hname
  case memories =>
    intro id hid
    rw [call_memories, Table.get?_insert, if_neg (hne id hid)]
  case executed =>
    intro id _
    rw [call_executed]
  case pulled =>
    intro id _
    rw [call_pulled]
  case calls =>
    rw [callsIn, call_calls, List.filter_cons_of_neg (by simpa using hout)]
    rfl

/-- A push outside the part leaves alone what the part shows. -/
theorem enter_right (s : Pass σ) (hout : ¬ ids node.id) (hlocal : d.Local node)
    (hnames : ∀ name ∈ node.variables, ¬ names name) (depth : Nat) (inputs : Inputs) :
    Same ids names s (s.enter d node depth inputs).2 := by
  have hmarked : Same ids names s { s with executed := node.id :: s.executed } := by
    refine ⟨.refl names s.world, fun _ _ => rfl, ?_, fun _ _ => rfl, rfl⟩
    intro id hid
    have hne : id ≠ node.id := fun heq => hout (heq ▸ hid)
    rw [List.mem_cons, or_iff_right hne]
  exact hmarked.trans (call_right _ hout hlocal hnames (.pushed depth) inputs)

theorem pull_right (p : Plan σ) (s : Pass σ) (hout : ¬ ids node.id) (hlocal : d.Local node)
    (hnames : ∀ name ∈ node.variables, ¬ names name) : Same ids names s (Pass.pull p d node s).2 := by
  refine pull_invariant (.refl s) (call_right s hout hlocal hnames .pulled {}) ?_
  intro t outputs ht
  refine ⟨ht.world, ht.memories, ht.executed, ?_, ht.calls⟩
  intro id hid
  have hne : node.id ≠ id := fun heq => hout (heq ▸ hid)
  rw [Table.get?_insert, if_neg hne]
  exact ht.pulled id hid

end Same

end Pass

/-! ## Unrelated graphs -/

/-- Different nodes, different variables, and no connection in between. -/
structure Graph.Unrelated (g₁ g₂ : Graph) : Prop extends Graph.Apart g₁ g₂ where
  vars : ∀ name ∈ g₁.variables, name ∉ g₂.variables

def Graph.EntityFree (g : Graph) : Prop := ∀ n ∈ g.nodes, n.kind ∈ Kind.entityFree

instance (g : Graph) : Decidable g.EntityFree :=
  inferInstanceAs (Decidable (∀ n ∈ g.nodes, n.kind ∈ Kind.entityFree))

namespace Graph

variable {g g₁ g₂ : Graph} {n : Node}

theorem Unrelated.symm (h : g₁.Unrelated g₂) : g₂.Unrelated g₁ :=
  ⟨h.toApart.symm, fun name h₂ h₁ => h.vars name h₁ h₂⟩

theorem mem_variables {name : String} (hn : n ∈ g.nodes) (hname : name ∈ n.variables) :
    name ∈ g.variables :=
  List.mem_flatMap.2 ⟨n, hn, hname⟩

/-- A node under an id of the first graph is a node of this graph. -/
theorem Merges.mem_left (h : g.Merges g₁ g₂) (hapart : g₁.Apart g₂) {id : NodeId}
    (hn : g.node? id = some n) (hid : g₁.Has n.id) : n ∈ g₁.nodes := by
  rcases h.nodes.mem_iff.1 (mem_of_node? hn) with hleft | hright
  · exact hleft
  · exact absurd (List.mem_map_of_mem hright) (hapart.nodes _ hid)

/-- Under other ids than those of the second graph, only nodes of the first one are found. -/
theorem Merges.found_left (h : g.Merges g₁ g₂) {id : NodeId} (hid : ¬ g₂.Has id) :
    g₁.node? id = g.node? id ∧ ∀ n, g.node? id = some n → g₁.Has n.id := by
  rw [h.node?_left hid]
  exact ⟨rfl, fun n hn => has_of_node? hn⟩

end Graph

namespace Pass

variable [SceneHost σ] {g g₁ g₂ : Graph}

/-- Kinds that do not deal with entities are local to their nodes and variables. -/
theorem local_of_entityFree (hfree : g.EntityFree) {node : Node} (hnode : node ∈ g.nodes)
    {d : Definition σ} (hd : (Catalogue.standard : Catalogue σ).get? node.kind = some d) :
    d.Local node :=
  Kind.local_of_entityFree (Catalogue.mem_of_standard hd).1 (Catalogue.mem_of_standard hd).2.symm
    (hfree node hnode)

/-- Inside the part, the walk through the whole graph goes on as the walk through the part alone. -/
theorem pairing_part (hmerge : g.Merges g₁ g₂) (hapart : g₁.Apart g₂) (hfree : g₁.EntityFree)
    (config : ExecutorConfig) :
    Pairing (g.plan (Catalogue.standard : Catalogue σ) config) (g₁.plan Catalogue.standard config)
      g₁.Has (fun _ => true) (fun _ => True) (Same g₁.Has (· ∈ g₁.variables)) := by
  constructor
  -- No connection leads into or out of the part, so nothing is left out in the second walk.
  case maxDepth => rfl
  case outgoing =>
    intro id hid
    rw [List.filter_true, Wiring.connectionsFrom_ofGraph, Wiring.connectionsFrom_ofGraph,
      hmerge.connectionsFrom_left hapart hid]
  case incoming =>
    intro id hid
    rw [List.filter_true, Wiring.connectionsTo_ofGraph, Wiring.connectionsTo_ofGraph,
      hmerge.connectionsTo_left hapart hid]
  case target =>
    intro id hid conn hconn _
    rw [Wiring.connectionsFrom_ofGraph, hmerge.connectionsFrom_left hapart hid,
      Graph.mem_connectionsFrom] at hconn
    rw [Wiring.node?_ofGraph, Wiring.node?_ofGraph]
    exact hmerge.found_left (hapart.left conn hconn.1).2
  case source =>
    intro id hid conn hconn _
    rw [Wiring.connectionsTo_ofGraph, hmerge.connectionsTo_left hapart hid,
      Graph.mem_connectionsTo] at hconn
    rw [Wiring.node?_ofGraph, Wiring.node?_ofGraph]
    exact hmerge.found_left (hapart.left conn hconn.1).1
  case kind => intro _ _ _ _; rfl
  case executed => intro s t id hid h; exact h.executed id hid
  case told => intro s t e htells h; exact h.record htells.isOwn
  case entered =>
    intro s t id node d inputs depth hnode hin hd _ h
    rw [Wiring.node?_ofGraph] at hnode
    have hmem := hmerge.mem_left hapart hnode hin
    exact h.enter hin (local_of_entityFree hfree hmem hd)
      (fun name hname => Graph.mem_variables hmem hname) depth inputs
  case pulled =>
    intro s t id conn source d _ hsource hin hd _ h
    rw [Wiring.node?_ofGraph] at hsource
    have hmem := hmerge.mem_left hapart hsource hin
    exact h.pull rfl hin (local_of_entityFree hfree hmem hd)
      (fun name hname => Graph.mem_variables hmem hname)
  case undelivered => intro _ _ _ _ _ _ _ hkeep; cases hkeep
  case unfollowed => intro _ _ _ _ _ _ _ _ _ _ _ hkeep; cases hkeep

/-- What happens in the other part leaves alone what the first one shows. -/
theorem pairing_other (hmerge : g.Merges g₁ g₂) (hunrelated : g₁.Unrelated g₂)
    (hfree : g₂.EntityFree) (config : ExecutorConfig) (s : Pass σ) :
    Pairing (g.plan (Catalogue.standard : Catalogue σ) config) (g.plan Catalogue.standard config)
      g₂.Has (fun _ => true) (fun _ => True)
      (fun t u => u = t ∧ Same g₁.Has (· ∈ g₁.variables) s t) := by
  have hswap := hmerge.symm
  have hapart := hunrelated.symm.toApart
  have hnames : ∀ {node : Node}, node ∈ g₂.nodes → ∀ name ∈ node.variables,
      name ∉ g₁.variables := by
    intro node hnode name hname hmem
    exact hunrelated.vars name hmem (Graph.mem_variables hnode hname)
  refine pairing_self ?_ ?_ ?_ ?_ ?_
  · intro id hid conn hconn
    rw [Wiring.connectionsFrom_ofGraph, hswap.connectionsFrom_left hapart hid,
      Graph.mem_connectionsFrom] at hconn
    rw [Wiring.node?_ofGraph]
    exact (hswap.found_left (hapart.left conn hconn.1).2).2
  · intro id hid conn hconn
    rw [Wiring.connectionsTo_ofGraph, hswap.connectionsTo_left hapart hid,
      Graph.mem_connectionsTo] at hconn
    rw [Wiring.node?_ofGraph]
    exact (hswap.found_left (hapart.left conn hconn.1).1).2
  · intro t e htells ht
    exact ht.trans (.record_right t htells.isOwn)
  · intro t id node d depth inputs hnode hin hd _ ht
    rw [Wiring.node?_ofGraph] at hnode
    have hmem := hswap.mem_left hapart hnode hin
    exact ht.trans (.enter_right t (hapart.nodes _ hin) (local_of_entityFree hfree hmem hd)
      (hnames hmem) depth inputs)
  · intro t id conn source d _ hsource hin hd _ ht
    rw [Wiring.node?_ofGraph] at hsource
    have hmem := hswap.mem_left hapart hsource hin
    exact ht.trans (.pull_right _ t (hapart.nodes _ hin) (local_of_entityFree hfree hmem hd)
      (hnames hmem))

/-- A pass over the whole graph shows the same of the part as a pass over the part alone.  Each start
node is one of the part, and starts both walks, or one of the other part. -/
theorem same_passEnd (hmerge : g.Merges g₁ g₂) (hunrelated : g₁.Unrelated g₂)
    (hfree₁ : g₁.EntityFree) (hfree₂ : g₂.EntityFree) (config : ExecutorConfig)
    {world world' : World σ} {memories memories' : Table NodeId Slot}
    (hworld : World.Alike (· ∈ g₁.variables) world world')
    (hmemories : ∀ id, g₁.Has id → memories'.get? id = memories.get? id) :
    Same g₁.Has (· ∈ g₁.variables)
      (Executor.passEnd g Catalogue.standard config world memories)
      (Executor.passEnd g₁ Catalogue.standard config world' memories') := by
  have hapart := hunrelated.toApart
  have hstart : Same g₁.Has (· ∈ g₁.variables) { world, memories }
      { world := world', memories := memories' } :=
    ⟨hworld, hmemories, fun _ _ => Iff.rfl, fun _ _ => rfl, rfl⟩
  rw [Executor.passEnd, Executor.passEnd, Plan.pass, Plan.pass, ← hmerge.startNodes_left hapart,
    List.foldl_filter]
  refine List.foldl_rel hstart ?_
  intro id _ s t hst
  by_cases hid : g₁.Has id
  · have hfound := hmerge.found_left (hapart.nodes id hid)
    rw [← Wiring.node?_ofGraph, ← Wiring.node?_ofGraph] at hfound
    rw [if_pos (decide_eq_true hid)]
    exact (pairing_part hmerge hapart hfree₁ config).start hfound.1 hfound.2 hst fun _ _ => trivial
  · have hfound := (hmerge.symm.found_left hid).2
    rw [← Wiring.node?_ofGraph] at hfound
    rw [if_neg (by simpa using hid)]
    have hother := (pairing_other hmerge hunrelated hfree₂ config s).start rfl hfound ⟨rfl, .refl s⟩
      fun _ _ => trivial
    exact hother.2.symm.trans hst

end Pass

/-! ## Passes in a row -/

/-- What a host does before a pass: it sets the clock, and something happens to itself, for instance a
key is pressed. -/
structure Move (σ : Type) where
  time : Float
  delta : Float
  host : σ → σ

def Move.apply (move : Move σ) (w : World σ) : World σ :=
  { w.advance move.time move.delta with host := move.host w.host }

theorem Move.alike_apply (move : Move σ) {names : String → Prop} {w w' : World σ}
    (h : World.Alike names w w') : World.Alike names (move.apply w) (move.apply w') :=
  ⟨rfl, congrArg move.host h.host, h.vars⟩

namespace Executor

/-- A row of passes over a graph shows the same of a part as a row of passes over the part alone: the
values of its variables, the memories of its nodes, and in each pass their runs, with inputs and
outputs. -/
structure SamePart (part : Graph) (r r' : Executor σ × World σ × List (List Event)) : Prop where
  vars : ∀ name ∈ part.variables, r.2.1.value? name = r'.2.1.value? name
  memories : ∀ n ∈ part.nodes, r.1.memory? n.id = r'.1.memory? n.id
  runs : r.2.2.map (fun events => (Event.calls events).filter fun call => part.Has call.node.id) =
    r'.2.2.map Event.calls

variable [SceneHost σ] {g g₁ g₂ : Graph}

/-- The runs of the part are all the runs of the part alone. -/
theorem callsIn_passEnd {config : ExecutorConfig} {world world' : World σ}
    {memories memories' : Table NodeId Slot}
    (hsame : Pass.Same g₁.Has (· ∈ g₁.variables)
      (passEnd g Catalogue.standard config world memories)
      (passEnd g₁ Catalogue.standard config world' memories')) :
    (Event.calls (passEnd g Catalogue.standard config world memories).events.reverse).filter
        (fun call => g₁.Has call.node.id) =
      Event.calls (passEnd g₁ Catalogue.standard config world' memories').events.reverse := by
  let s := passEnd g Catalogue.standard config world memories
  let t := passEnd g₁ Catalogue.standard config world' memories'
  have hover := Pass.over_passEnd g₁ (Catalogue.standard : Catalogue σ) config world' memories'
  have hall : t.calls.filter (fun call => g₁.Has call.node.id) = t.calls := by
    refine List.filter_eq_self.2 ?_
    intro call hcall
    exact decide_eq_true (Graph.has_of_node? (hover.known (List.mem_reverse.2 hcall)).1)
  calc (Event.calls s.events.reverse).filter (fun call => g₁.Has call.node.id)
      = (s.calls.filter fun call => g₁.Has call.node.id).reverse := by
        rw [← List.filter_reverse, Event.calls, List.filterMap_reverse]
        rfl
    _ = (t.calls.filter fun call => g₁.Has call.node.id).reverse :=
        congrArg List.reverse hsame.calls.symm
    _ = t.calls.reverse := by rw [hall]
    _ = Event.calls t.events.reverse := by
        rw [Event.calls, List.filterMap_reverse]
        rfl

/-- Passes in a row show the same of the part, if the executors and worlds did at first. -/
theorem samePart_frames (hmerge : g.Merges g₁ g₂) (hunrelated : g₁.Unrelated g₂)
    (hfree₁ : g₁.EntityFree) (hfree₂ : g₂.EntityFree) (config : ExecutorConfig)
    (moves : List (Move σ)) (e e' : Executor σ) (world world' : World σ)
    (hplan : e.plan = g.plan Catalogue.standard config ∧
      e.startNodes = (Wiring.ofGraph g).startNodes (Catalogue.standard : Catalogue σ))
    (hplan' : e'.plan = g₁.plan Catalogue.standard config ∧
      e'.startNodes = (Wiring.ofGraph g₁).startNodes (Catalogue.standard : Catalogue σ))
    (hworld : World.Alike (· ∈ g₁.variables) world world')
    (hmemories : ∀ id, g₁.Has id → e'.memories.get? id = e.memories.get? id) :
    SamePart g₁ (e.frames world (moves.map Move.apply)) (e'.frames world' (moves.map Move.apply)) := by
  induction moves generalizing e e' world world' with
  | nil =>
    constructor
    case vars => exact fun name hname => (hworld.vars name hname).symm
    case memories => exact fun n hn => (hmemories n.id (List.mem_map_of_mem hn)).symm
    case runs => rfl
  | cons move moves ih =>
    have hsame := Pass.same_passEnd hmerge hunrelated hfree₁ hfree₂ config
      (move.alike_apply hworld) hmemories
    rw [List.map_cons, frames_cons, frames_cons, execute_eq hplan, execute_eq hplan']
    -- After the pass both executors are as `ih` wants them, in worlds that look the same again.
    have hrest := ih
      { e with
        memories := (passEnd g Catalogue.standard config (move.apply world) e.memories).memories
        frame := e.frame + 1 }
      { e' with
        memories := (passEnd g₁ Catalogue.standard config (move.apply world') e'.memories).memories
        frame := e'.frame + 1 } _ _ hplan hplan' hsame.world hsame.memories
    refine ⟨hrest.vars, hrest.memories, ?_⟩
    rw [List.map_cons, List.map_cons, callsIn_passEnd hsame]
    exact congrArg _ hrest.runs

/-- In a graph that is made of two unrelated ones, without nodes that deal with entities, each of the
two runs as it would alone. -/
theorem frames_merged (g g₁ g₂ : Graph) (hmerge : g.Merges g₁ g₂) (hunrelated : g₁.Unrelated g₂)
    (hfree₁ : g₁.EntityFree) (hfree₂ : g₂.EntityFree) (config : ExecutorConfig) (host : σ)
    (ids : IdSupply) (moves : List (Move σ)) :
    SamePart g₁
      ((ofGraph g Catalogue.standard config).1.frames (World.ofHost host ids) (moves.map Move.apply))
      ((ofGraph g₁ Catalogue.standard config).1.frames (World.ofHost host ids)
        (moves.map Move.apply)) :=
  samePart_frames hmerge hunrelated hfree₁ hfree₂ config moves _ _ _ _ ⟨rfl, rfl⟩ ⟨rfl, rfl⟩
    (.refl _ _) fun _ _ => rfl

end Executor

/-- Counts the passes in which the space bar is held. -/
def Graph.counter : Graph where
  nodes := [.ofKind "key" "OnKey",
    (Node.ofKind "count" "AddVar").withProperty "varName" (.text "held")]
  connections := [⟨"1", "key", "exec", "count", "exec"⟩]

/-- Sets a variable when the play starts. -/
def Graph.flag : Graph where
  nodes := [.ofKind "start" "OnStart",
    (Node.ofKind "set" "SetVar").withProperty "varName" (.text "started")]
  connections := [⟨"2", "start", "exec", "set", "exec"⟩]

def Graph.flaggedCounter : Graph where
  nodes := [.ofKind "start" "OnStart", .ofKind "key" "OnKey",
    (Node.ofKind "count" "AddVar").withProperty "varName" (.text "held"),
    (Node.ofKind "set" "SetVar").withProperty "varName" (.text "started")]
  connections := [⟨"2", "start", "exec", "set", "exec"⟩, ⟨"1", "key", "exec", "count", "exec"⟩]

theorem Graph.merges_flaggedCounter : flaggedCounter.Merges counter flag where
  nodes := .right _ (.left _ (.left _ (.right _ .nil)))
  connections := .right _ (.left _ .nil)

theorem Graph.unrelated_counter : counter.Unrelated flag := by
  refine ⟨⟨?_, by decide, by decide⟩, by decide⟩
  intro id hid
  have hid : id = "key" ∨ id = "count" := by
    simpa [Has, counter, Node.ofKind, Node.withProperty] using hid
  rcases hid with rfl | rfl <;> decide

namespace Executor

/-- The key is held in two of three passes, and beside the flag the counter counts them as it would
alone. -/
theorem frames_flaggedCounter :
    let moves : List (Move HeadlessScene) :=
      [⟨16, 16, (·.setKey .space true)⟩, ⟨32, 16, id⟩, ⟨48, 16, (·.setKey .space false)⟩]
    let run (g : Graph) := (ofGraph g Catalogue.standard {}).1.frames
      (World.ofHost ({} : HeadlessScene) ⟨fun _ => "", 0⟩) (moves.map Move.apply)
    Graph.flaggedCounter.Merges Graph.counter Graph.flag ∧ Graph.counter.Unrelated Graph.flag ∧
      Graph.counter.EntityFree ∧ Graph.flag.EntityFree ∧
      (run Graph.flaggedCounter).2.1.value? "held" = some (.number (.plain 2)) := by
  intro moves run
  have hfree₁ : Graph.counter.EntityFree := by decide
  have hfree₂ : Graph.flag.EntityFree := by decide
  have hsame := frames_merged Graph.flaggedCounter Graph.counter Graph.flag
    Graph.merges_flaggedCounter Graph.unrelated_counter hfree₁ hfree₂ {} {} ⟨fun _ => "", 0⟩ moves
  have halone : (run Graph.counter).2.1.value? "held" = some (.number (.plain 2)) := by decide +kernel
  exact ⟨Graph.merges_flaggedCounter, Graph.unrelated_counter, hfree₁, hfree₂,
    (hsame.vars "held" (by decide)).trans halone⟩

end Executor

end GraphScript

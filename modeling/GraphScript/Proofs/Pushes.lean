import GraphScript.Proofs.ExecutorRuns
import GraphScript.Proofs.IssueFree

/-!
# Pushes — every push of a pass has its reason

For a pass over any graph, with any kinds and from any state:

- start nodes are pushed once each, in their order, at depth zero and with no inputs;
- every other push stays within the depth limit and goes back to a connection that an earlier push
  opened one level above it;
- a node whose kind is no frame trigger is pushed at most once;
- a node without outgoing data connections is never pulled.

`PushRules` says so of a list of runs, and `Executor.pushRules_runs` proves it of every pass.
-/

namespace GraphScript

variable {σ : Type}

/-- Does the id stand for a node whose kind is known to be a frame trigger? -/
def Graph.isTrigger (g : Graph) (c : Catalogue σ) (id : NodeId) : Bool :=
  (g.definition? c id).any (·.frameTrigger)

/-- A push that is no start: an earlier push, one level above it, opened a connection to its node. -/
def Call.Follows (call : Call) (g : Graph) (c : Catalogue σ) (depth : Nat) (before : List Call) :
    Prop :=
  ∃ source ∈ before, ∃ conn ∈ g.connections, source.cause = .pushed depth ∧
    conn.fromNode = source.node.id ∧ source.Opens c conn.fromPort ∧ conn.toNode = call.node.id

/-- What holds of the runs of one pass, in order. -/
structure PushRules (g : Graph) (c : Catalogue σ) (maxDepth : Nat) (starts : List NodeId)
    (runs : List Call) : Prop where
  /-- Only nodes of the graph run, and only those whose kind is known. -/
  known : ∀ call ∈ runs,
    g.node? call.node.id = some call.node ∧ ∃ d, c.get? call.node.kind = some d
  /-- Start nodes are declared in this order, without repeats. -/
  declared : starts.Sublist (g.nodes.map (·.id)) ∧ starts.Nodup
  started : (runs.filter (·.cause = .pushed 0)).map (fun call => (call.node.id, call.inputs)) =
    starts.map fun id => (id, {})
  followed : ∀ before call rest depth, runs = before ++ call :: rest →
    call.cause = .pushed (depth + 1) → depth + 1 ≤ maxDepth ∧ call.Follows g c depth before
  once : ∀ id, g.isTrigger c id = false →
    runs.countP (fun call => call.isPush && call.node.id = id) ≤ 1
  unpulled : ∀ id,
    (∀ conn ∈ g.connections, conn.fromNode = id → ∀ d, g.definition? c id = some d →
      d.isControlOutput conn.fromPort = true) →
    (∀ call ∈ runs, call.node.id = id → call.isPush = true) ∧
      (g.isTrigger c id = false → runs.countP (fun call => call.node.id = id) ≤ 1)

namespace Pass

variable {p : Plan σ} {starts : List NodeId} {s t : Pass σ}

/-! ## Reasons accumulate -/

/-- Each item of a list, last one first, is in a relation to the items before it. -/
def Each {α : Type} (P : List α → α → Prop) : List α → Prop
  | [] => True
  | a :: before => P before a ∧ Each P before

/-- Any item of the list is related to the items before it. -/
theorem Each.split {α : Type} {P : List α → α → Prop} {later before : List α} {a : α}
    (h : Each P (later ++ a :: before)) : P before a := by
  induction later with
  | nil => exact h.1
  | cons _ later ih => exact ih h.2

theorem Each.mem {α : Type} {P : List α → α → Prop} {l : List α} {a : α}
    (h : Each P l) (hmem : a ∈ l) : ∃ before, before ⊆ l ∧ P before a := by
  rcases List.append_of_mem hmem with ⟨later, before, rfl⟩
  refine ⟨before, ?_, h.split⟩
  intro b hb
  exact List.mem_append_right _ (List.mem_cons_of_mem _ hb)

/-- Why a run took place, seen from the runs before it. -/
def Explained (p : Plan σ) (before : List Call) (call : Call) : Prop :=
  p.wiring.node? call.node.id = some call.node ∧
    ∃ d, p.catalogue.get? call.node.kind = some d ∧
      match call.cause with
      | .pulled => ∃ target, ∃ conn ∈ p.wiring.connectionsTo target,
          conn.fromNode = call.node.id ∧ d.isControlOutput conn.fromPort = false
      | .pushed 0 => True
      | .pushed (depth + 1) => depth + 1 ≤ p.config.maxDepth ∧
          ∃ conn, Opened p before conn depth ∧ conn.toNode = call.node.id

/-- A pull was made for a data connection from its node. -/
theorem Explained.pulls {before : List Call} {call : Call} (h : Explained p before call)
    (hpull : call.isPush = false) :
    ∃ target, ∃ conn ∈ p.wiring.connectionsTo target, conn.fromNode = call.node.id ∧
      ∃ d, p.catalogue.get? call.node.kind = some d ∧ d.isControlOutput conn.fromPort = false := by
  rcases call with ⟨node, cause, inputs, outputs⟩
  rcases h with ⟨-, d, hd, hreason⟩
  cases cause with
  | pushed depth => cases hpull
  | pulled =>
    rcases hreason with ⟨target, conn, hconn, hfrom, hport⟩
    exact ⟨target, conn, hconn, hfrom, d, hd, hport⟩

/-- Steps add explained runs only. -/
theorem each_explained (hkeyed : p.wiring.Keyed) (h : Steps p starts s t)
    (hs : Each (Explained p) s.calls) : Each (Explained p) t.calls := by
  refine h.invariant (I := fun s => Each (Explained p) s.calls) ?_ hs
  intro s t hstep hs
  rcases hstep.run_cases hkeyed with ⟨hcalls, -⟩ | ⟨call, d, hcalls, -, hnode, hd, hreason⟩
  · rw [hcalls]
    exact hs
  · rw [hcalls]
    refine ⟨⟨hnode, d, hd, ?_⟩, hs⟩
    -- The reason of the step is the reason of the run, seen from the runs before it.
    cases hreason with
    | pulled hconn hfrom hport => exact ⟨_, _, hconn, hfrom, hport⟩
    | pushed hopen hto hmay hdepth => exact ⟨hdepth, _, hopen, hto⟩
    | started hid hmay => trivial

/-! ## Pushes are not repeated -/

def pushes (id : NodeId) (calls : List Call) : Nat :=
  calls.countP fun call => call.isPush && call.node.id = id

/-- A node that has been pushed is marked, and was pushed once only unless it is a trigger. -/
def Counted (p : Plan σ) (s : Pass σ) : Prop :=
  ∀ id, (∀ n d, p.wiring.node? id = some n → p.catalogue.get? n.kind = some d →
      d.frameTrigger = false) →
    pushes id s.calls ≤ if id ∈ s.executed then 1 else 0

/-- A push that may be made keeps the count. -/
theorem Counted.push {call : Call} {d : Definition σ} (hs : Counted p s)
    (hnode : p.wiring.node? call.node.id = some call.node)
    (hd : p.catalogue.get? call.node.kind = some d) (hmay : MayEnter d call.node s)
    (hcalls : t.calls = call :: s.calls) (hexecuted : t.executed = call.node.id :: s.executed) :
    Counted p t := by
  intro id hplain
  have hbefore := hs id hplain
  rw [hcalls, hexecuted, pushes, List.countP_cons]
  by_cases hid : call.node.id = id
  · -- A node that is no trigger may only be entered while it is unmarked.
    have hunmarked : id ∉ s.executed := by
      rcases hmay with htrigger | hunmarked
      · rw [hplain call.node d (hid ▸ hnode) hd] at htrigger
        cases htrigger
      · exact hid ▸ hunmarked
    rw [if_neg hunmarked] at hbefore
    simp only [hid, List.mem_cons, true_or, if_true]
    unfold pushes at hbefore
    split <;> omega
  · simp only [hid, Ne.symm hid, List.mem_cons, false_or, decide_false, Bool.and_false,
      Bool.false_eq_true, if_false, Nat.add_zero]
    exact hbefore

/-- Steps keep the count. -/
theorem counted_steps (hkeyed : p.wiring.Keyed) (h : Steps p starts s t) (hs : Counted p s) :
    Counted p t := by
  refine h.invariant (I := Counted p) ?_ hs
  intro s t hstep hs
  rcases hstep.run_cases hkeyed with ⟨hcalls, hexecuted⟩ |
    ⟨call, d, hcalls, hexecuted, hnode, hd, hreason⟩
  · intro id hplain
    rw [hcalls, hexecuted]
    exact hs id hplain
  · cases hreason with
    | pulled hconn hfrom hport =>
      -- A pull neither counts as a push nor leaves a mark.
      intro id hplain
      have hbefore := hs id hplain
      rw [hcalls, hexecuted, pushes, List.countP_cons]
      exact hbefore
    | pushed hopen hto hmay hdepth => exact hs.push hnode hd hmay hcalls hexecuted
    | started hid hmay => exact hs.push hnode hd hmay hcalls hexecuted

/-! ## Start nodes -/

/-- The pushes at depth zero, last one first, with their inputs. -/
def startRuns (s : Pass σ) : List (NodeId × Inputs) :=
  (s.calls.filter (·.cause = .pushed 0)).map fun call => (call.node.id, call.inputs)

/-- Steps that may start no node start none. -/
theorem startRuns_steps (hkeyed : p.wiring.Keyed) (h : Steps p [] s t) :
    t.startRuns = s.startRuns := by
  refine h.invariant (I := fun t => t.startRuns = s.startRuns) ?_ rfl
  intro t u hstep ht
  rw [← ht]
  rcases hstep.run_cases hkeyed with ⟨hcalls, -⟩ | ⟨call, d, hcalls, -, -, -, hreason⟩
  · rw [startRuns, startRuns, hcalls]
  · rw [startRuns, startRuns, hcalls]
    -- Pulls and deeper pushes are filtered out, and no node is left to start.
    cases hreason with
    | pulled => rfl
    | pushed => rfl
    | started hid => cases hid

/-- A frame trigger is entered at its start, whatever ran before. -/
theorem startRuns_start (hkeyed : p.wiring.Keyed) {id : NodeId} {node : Node} {d : Definition σ}
    (hnode : p.wiring.node? id = some node) (hd : p.catalogue.get? node.kind = some d)
    (htrigger : d.frameTrigger = true) (s : Pass σ) :
    (start p s id).startRuns = (id, {}) :: s.startRuns := by
  have hmay : MayEnter d node s := Or.inl htrigger
  have hstart : start p s id = push p p.config.maxDepth 0 node {} s := by
    simp [start, hnode]
  -- What the start sets off happens by steps that start nothing themselves.
  have hsteps : Steps p [] (s.enter d node 0 {}).2 (push p p.config.maxDepth 0 node {} s) :=
    steps_push_of_mayEnter (Nat.zero_add _) s hd hmay
  rw [hstart, startRuns_steps hkeyed hsteps, startRuns, enter_calls]
  simp [startRuns, hkeyed id node hnode]

/-- The starts of a pass are pushed in their order, without inputs. -/
theorem startRuns_foldl (hkeyed : p.wiring.Keyed) (starts : List NodeId) (s : Pass σ)
    (hstarts : ∀ id ∈ starts, ∃ n d, p.wiring.node? id = some n ∧
      p.catalogue.get? n.kind = some d ∧ d.frameTrigger = true) :
    (starts.foldl (start p) s).startRuns =
      (starts.map fun id => (id, ({} : Inputs))).reverse ++ s.startRuns := by
  induction starts generalizing s with
  | nil => rfl
  | cons id starts ih =>
    rcases hstarts id List.mem_cons_self with ⟨node, d, hnode, hd, htrigger⟩
    rw [List.foldl_cons, ih _ (fun id' hid' => hstarts id' (List.mem_cons_of_mem _ hid')),
      startRuns_start hkeyed hnode hd htrigger]
    simp

/-! ## The end of a pass -/

/-- What is known when a pass over a graph is over. -/
structure Over (g : Graph) (c : Catalogue σ) (config : ExecutorConfig) (s : Pass σ) : Prop where
  explained : Each (Explained ⟨Wiring.ofGraph g, c, config⟩) s.calls
  counted : Counted ⟨Wiring.ofGraph g, c, config⟩ s
  started : s.startRuns =
    (((Wiring.ofGraph g).startNodes c).map fun id => (id, ({} : Inputs))).reverse

/-- All of this is known at the end of every pass. -/
theorem over_passEnd (g : Graph) (c : Catalogue σ) (config : ExecutorConfig) (world : World σ)
    (memories : Table NodeId Slot) : Over g c config (Executor.passEnd g c config world memories) := by
  have hkeyed : (Wiring.ofGraph g).Keyed := Wiring.keyed_ofGraph g
  have hsteps := (⟨Wiring.ofGraph g, c, config⟩ : Plan σ).steps_pass
    ((Wiring.ofGraph g).startNodes c) world memories
  constructor
  · exact each_explained hkeyed hsteps trivial
  · exact counted_steps hkeyed hsteps (fun _ _ => Nat.zero_le _)
  · have hstarted := startRuns_foldl (p := ⟨Wiring.ofGraph g, c, config⟩) hkeyed
      ((Wiring.ofGraph g).startNodes c) { world, memories } (Wiring.triggers_startNodes g c)
    exact hstarted.trans (List.append_nil _)

end Pass

namespace Graph

theorem isTrigger_eq_false_iff {g : Graph} {c : Catalogue σ} {id : NodeId} :
    g.isTrigger c id = false ↔
      ∀ n d, g.node? id = some n → c.get? n.kind = some d → d.frameTrigger = false := by
  rw [isTrigger, Option.any_eq_false]
  constructor
  · intro h n d hn hd
    simpa using h d (definition?_eq_some_iff.2 ⟨n, hn, hd⟩)
  · intro h d hd
    rcases definition?_eq_some_iff.1 hd with ⟨n, hn, hd⟩
    simp [h n d hn hd]

end Graph

namespace Pass.Over

variable {g : Graph} {c : Catalogue σ} {config : ExecutorConfig} {s : Pass σ}

theorem known (h : Over g c config s) {call : Call} (hcall : call ∈ s.calls.reverse) :
    g.node? call.node.id = some call.node ∧ ∃ d, c.get? call.node.kind = some d := by
  rcases h.explained.mem (List.mem_reverse.1 hcall) with ⟨before, -, hnode, d, hd, -⟩
  rw [Wiring.node?_ofGraph] at hnode
  exact ⟨hnode, d, hd⟩

/-- The pushes at depth zero are those of the start nodes, in their order. -/
theorem starts_eq (h : Over g c config s) :
    (s.calls.reverse.filter (·.cause = .pushed 0)).map (fun call => (call.node.id, call.inputs)) =
      ((Wiring.ofGraph g).startNodes c).map fun id => (id, {}) := by
  rw [List.filter_reverse, List.map_reverse, ← List.reverse_inj, List.reverse_reverse]
  exact h.started

/-- A deeper push follows one that was made before it. -/
theorem follows (h : Over g c config s) {before rest : List Call} {call : Call} {depth : Nat}
    (hruns : s.calls.reverse = before ++ call :: rest) (hcause : call.cause = .pushed (depth + 1)) :
    depth + 1 ≤ config.maxDepth ∧ call.Follows g c depth before := by
  have hcalls : s.calls = rest.reverse ++ call :: before.reverse := by
    simpa using congrArg List.reverse hruns
  have hexplained := h.explained
  rw [hcalls] at hexplained
  rcases hexplained.split with ⟨-, d, -, hreason⟩
  rw [hcause] at hreason
  rcases hreason with ⟨hdepth, conn, hopen, hto⟩
  -- The reason is told in terms of the wiring; its connections are those of the graph.
  rcases hopen with ⟨source, hsource, hsourceCause, hconn, hopens⟩
  rw [Wiring.connectionsFrom_ofGraph, Graph.mem_connectionsFrom] at hconn
  exact ⟨hdepth, source, List.mem_reverse.1 hsource, conn, hconn.1, hsourceCause, hconn.2, hopens,
    hto⟩

/-- A node that is no frame trigger is pushed at most once. -/
theorem pushed_once (h : Over g c config s) {id : NodeId} (hplain : g.isTrigger c id = false) :
    s.calls.reverse.countP (fun call => call.isPush && call.node.id = id) ≤ 1 := by
  rw [Graph.isTrigger_eq_false_iff] at hplain
  rw [List.countP_reverse]
  refine Nat.le_trans (h.counted id ?_) ?_
  · intro n d hn hd
    rw [Wiring.node?_ofGraph] at hn
    exact hplain n d hn hd
  · split <;> omega

/-- A pull goes through a data connection, so without one there are only pushes. -/
theorem only_pushed (h : Over g c config s) {id : NodeId}
    (hcontrol : ∀ conn ∈ g.connections, conn.fromNode = id → ∀ d, g.definition? c id = some d →
      d.isControlOutput conn.fromPort = true) {call : Call} (hcall : call ∈ s.calls.reverse)
    (hid : call.node.id = id) : call.isPush = true := by
  rcases h.explained.mem (List.mem_reverse.1 hcall) with ⟨before, -, hexplained⟩
  cases hpush : call.isPush with
  | true => rfl
  | false =>
    -- A pull would have gone through a data connection from the node, and it has none.
    rcases hexplained.pulls hpush with ⟨target, conn, hconn, hfrom, d, hd, hport⟩
    have hnode := hexplained.1
    rw [Wiring.node?_ofGraph] at hnode
    rw [Wiring.connectionsTo_ofGraph, Graph.mem_connectionsTo] at hconn
    have hd' : g.definition? c id = some d :=
      Graph.definition?_eq_some_iff.2 ⟨call.node, hid ▸ hnode, hd⟩
    rw [hcontrol conn hconn.1 (hfrom.trans hid) d hd'] at hport
    cases hport

end Pass.Over

/-- In every pass over every graph the pushes keep the rules. -/
theorem Executor.pushRules_runs (g : Graph) (c : Catalogue σ) (config : ExecutorConfig)
    (turns : List (Turn σ)) (world : World σ) :
    PushRules g c config.maxDepth (ofGraph g c config).1.startNodes
      (((ofGraph g c config).1.after turns).runs world) := by
  rw [runs_after]
  generalize ((ofGraph g c config).1.after turns).memories = memories
  have hover := Pass.over_passEnd g c config world memories
  constructor
  case known => exact fun call hcall => hover.known hcall
  case declared => exact ⟨Wiring.startNodes_sublist g c, Wiring.startNodes_nodup g c⟩
  case started => exact hover.starts_eq
  case followed => exact fun before call rest depth hruns hcause => hover.follows hruns hcause
  case once => exact fun id hplain => hover.pushed_once hplain
  case unpulled =>
    intro id hcontrol
    refine ⟨fun call hcall hid => hover.only_pushed hcontrol hcall hid, ?_⟩
    intro hplain
    -- All runs of the node are pushes, so they are counted as such.
    refine Nat.le_trans (Nat.le_of_eq (List.countP_congr ?_)) (hover.pushed_once hplain)
    intro call hcall
    by_cases hid : call.node.id = id
    · simp [hid, hover.only_pushed hcontrol hcall hid]
    · simp [hid]

end GraphScript

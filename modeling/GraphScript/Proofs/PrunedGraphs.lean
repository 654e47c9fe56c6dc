import GraphScript.Kind.Standard
import GraphScript.Proofs.ExecutorRuns
import GraphScript.Proofs.IssueFree
import GraphScript.Proofs.PassPairs

/-!
# PrunedGraphs — leaving out what validation reports about kinds and ports

A graph may be pruned: nodes of unknown kinds go, and with them the connections that touch them and
those with an issue of a port.  A pass looks at no declaration of a port but that of a control output,
so a reported connection may well act, and then pruning changes the run (`Executor.misdirected_acts`).

- `Graph.Idle` — an event is none in which a reported connection acts;
- `Executor.frames_pruned` — as long as nothing else happens, pruning changes no run at all;
- `Executor.frames_pruned_of_control` — nodes of unknown kinds can go if only control flow enters them.
-/

namespace GraphScript

variable {σ : Type}

def Issue.isPort : Issue → Bool
  | .unknownPort .. | .incompatiblePorts .. => true
  | _ => false

namespace Graph

variable (g : Graph) (c : Catalogue σ)

def hasUnknown (id : NodeId) : Bool := (g.node? id).any fun n => !c.contains n.kind

/-- Does the connection touch a node of an unknown kind, or have an issue of a port? -/
def drops (conn : Connection) : Bool :=
  g.hasUnknown c conn.fromNode || g.hasUnknown c conn.toNode ||
    (connectionIssues g c conn).any Issue.isPort

/-- The graph without nodes of unknown kinds, and without what is dropped with them. -/
def pruned : Graph where
  nodes := g.nodes.filter fun n => c.contains n.kind
  connections := g.connections.filter fun conn => !g.drops c conn

/-- Wherever a node of a known kind is declared, the first node under its id is of a known kind. -/
def Unhidden (c : Catalogue σ) (ns : List Node) : Prop :=
  ∀ n ∈ ns, c.contains n.kind = true →
    (ns.find? (·.id = n.id)).all (fun first => c.contains first.kind) = true

instance (ns : List Node) : Decidable (Unhidden c ns) :=
  inferInstanceAs (Decidable (∀ n ∈ ns, c.contains n.kind = true →
    (ns.find? (·.id = n.id)).all (fun first => c.contains first.kind) = true))

/-- In the event no connection acts that is dropped: none is resolved, and none leads to a node of a
known kind. -/
def Idle : Event → Prop
  | .resolved conn _ => g.drops c conn = false
  | .followed conn _ => g.drops c conn = true → g.definition? c conn.toNode = none
  | _ => True

instance : DecidablePred (g.Idle c)
  | .resolved conn _ => inferInstanceAs (Decidable (g.drops c conn = false))
  | .followed conn _ =>
    inferInstanceAs (Decidable (g.drops c conn = true → g.definition? c conn.toNode = none))
  | .called _ | .noted _ => .isTrue trivial

variable {g c}

/-! ## Nodes of the pruned graph -/

/-- A node of a known kind that comes first under its id still does. -/
theorem node?_pruned_of_node? {id : NodeId} {n : Node} (hn : g.node? id = some n)
    (hknown : c.contains n.kind = true) : (g.pruned c).node? id = some n := by
  rcases List.find?_eq_some_iff_append.1 hn with ⟨hid, before, after, hnodes, hbefore⟩
  rw [node?, pruned, List.find?_filter]
  refine List.find?_eq_some_iff_append.2 ⟨by simp [hknown, hid], before, after, hnodes, ?_⟩
  intro m hm
  have hother := hbefore m hm
  simp [hother]

/-- Where a node of a known kind is found, or none at all, pruning changes nothing. -/
theorem node?_pruned_of_known {id : NodeId} (h : g.hasUnknown c id = false) :
    (g.pruned c).node? id = g.node? id := by
  cases hn : g.node? id with
  | none =>
    have hall : ∀ n ∈ g.nodes, ¬ decide (n.id = id) = true := List.find?_eq_none.1 hn
    refine List.find?_eq_none.2 ?_
    intro n hkept
    exact hall n (List.mem_of_mem_filter hkept)
  | some n =>
    have hknown : c.contains n.kind = true := by simpa [hasUnknown, hn] using h
    exact node?_pruned_of_node? hn hknown

namespace Unhidden

variable {n : Node} {ns : List Node}

/-- Nodes under the id of the first one hide none of the others. -/
theorem rest (h : Unhidden c (n :: ns)) :
    Unhidden c (ns.filter fun m => (m.id == n.id) = false) := by
  intro m hm hknown
  rw [List.mem_filter] at hm
  have hid : m.id ≠ n.id := by simpa using hm.2
  have hsame : (fun other : Node => decide
      (decide ((other.id == n.id) = false) = true ∧ decide (other.id = m.id) = true)) =
      fun other => decide (other.id = m.id) := by
    funext other
    by_cases heq : other.id = m.id
    · simp [heq, hid]
    · simp [heq]
  have hfirst := h m (List.mem_cons_of_mem _ hm.1) hknown
  rw [List.find?_cons_of_neg (by simpa using Ne.symm hid)] at hfirst
  rw [List.find?_filter, hsame]
  exact hfirst

/-- Behind a node of an unknown kind, those of known kinds have other ids. -/
theorem filter_known (h : Unhidden c (n :: ns)) (hunknown : c.contains n.kind = false) :
    (ns.filter fun m => c.contains m.kind) =
      (ns.filter fun m => (m.id == n.id) = false).filter fun m => c.contains m.kind := by
  rw [List.filter_filter]
  refine List.filter_congr ?_
  intro m hm
  by_cases hid : m.id = n.id
  · cases hknown : c.contains m.kind with
    | false => simp
    | true =>
      have hfirst := h m (List.mem_cons_of_mem _ hm) hknown
      rw [List.find?_cons_of_pos (by simp [hid])] at hfirst
      cases hunknown.symm.trans hfirst
  · simp [hid]

end Unhidden

/-- Leaving out unknown kinds first does not change which nodes of known kinds come first under their
ids. -/
theorem filter_eraseDupsBy_of_unhidden {start : Node → Bool}
    (hstart : ∀ n, start n = true → c.contains n.kind = true) (ns : List Node)
    (h : Unhidden c ns) :
    ((ns.filter fun n => c.contains n.kind).eraseDupsBy fun m n => m.id == n.id).filter start =
      (ns.eraseDupsBy fun m n => m.id == n.id).filter start := by
  -- The induction removes repeats: behind a node those under its id are left out.
  induction ns using repeats_induction (r := fun m n : Node => m.id == n.id) with
  | nil => rfl
  | cons n ns ih =>
    have hih := ih h.rest
    rw [List.eraseDupsBy_cons]
    cases hknown : c.contains n.kind with
    | true =>
      rw [List.filter_cons_of_pos (by simpa using hknown), List.eraseDupsBy_cons,
        List.filter_comm, List.filter_cons, List.filter_cons, hih]
    | false =>
      have hnever : start n = false := by
        refine Bool.eq_false_iff.2 fun hn => ?_
        cases hknown.symm.trans (hstart n hn)
      rw [List.filter_cons_of_neg (by simp [hknown]), h.filter_known hknown, hih,
        List.filter_cons_of_neg (by simp [hnever])]

/-- Nodes of unknown kinds start nothing, and hide no node that does. -/
theorem startNodes_pruned (h : Unhidden c g.nodes) :
    (Wiring.ofGraph (g.pruned c)).startNodes c = (Wiring.ofGraph g).startNodes c := by
  have hstart : ∀ n : Node, (c.get? n.kind).any Definition.isStart = true →
      c.contains n.kind = true := by
    intro n hn
    rcases Option.any_eq_true _ _ |>.1 hn with ⟨d, hd, -⟩
    exact Table.contains_iff.2 ⟨d, hd⟩
  rw [Wiring.startNodes, Wiring.startNodes, Wiring.values_ofGraph, Wiring.values_ofGraph]
  exact congrArg (List.map Node.id) (filter_eraseDupsBy_of_unhidden hstart g.nodes h)

/-! ## Connections of the pruned graph -/

theorem connectionsFrom_pruned (id : NodeId) :
    (g.pruned c).connectionsFrom id = (g.connectionsFrom id).filter fun conn => !g.drops c conn :=
  List.filter_comm _ _ _

theorem connectionsTo_pruned (id : NodeId) :
    (g.pruned c).connectionsTo id = (g.connectionsTo id).filter fun conn => !g.drops c conn :=
  List.filter_comm _ _ _

/-- A connection that is kept has the ends that it had. -/
theorem node?_ends_of_kept {conn : Connection} (hkeep : (!g.drops c conn) = true) :
    (g.pruned c).node? conn.fromNode = g.node? conn.fromNode ∧
      (g.pruned c).node? conn.toNode = g.node? conn.toNode := by
  simp only [drops, Bool.not_eq_true', Bool.or_eq_false_iff] at hkeep
  exact ⟨node?_pruned_of_known hkeep.1.1, node?_pruned_of_known hkeep.1.2⟩

/-- Connections into nodes of unknown kinds are dropped. -/
theorem drops_of_unknown {conn : Connection} {n : Node} (hn : g.node? conn.toNode = some n)
    (hkind : c.get? n.kind = none) : g.drops c conn = true := by
  have hunknown : g.hasUnknown c conn.toNode = true := by
    simp [hasUnknown, hn, Table.contains_eq_false_iff.2 hkind]
  simp [drops, hunknown]

end Graph

namespace Pass

variable {g : Graph} {c : Catalogue σ} {config : ExecutorConfig} {s t : Pass σ}

/-! ## The pass over the pruned graph -/

/-- The passes over a graph and over the pruned graph have come equally far. -/
structure Level (s t : Pass σ) : Prop where
  world : t.world = s.world
  memories : t.memories = s.memories
  executed : t.executed = s.executed
  pulled : t.pulled = s.pulled
  calls : t.calls = s.calls

namespace Level

theorem even (h : Level s t) : Even s t := ⟨h.world, h.memories, h.executed, h.pulled⟩

theorem record (h : Level s t) {e : Event} (he : e.isOwn = true) :
    Level (s.record e) (t.record e) := by
  refine ⟨h.world, h.memories, h.executed, h.pulled, ?_⟩
  rw [calls_record he, calls_record he]
  exact h.calls

/-- What only the first pass tells puts it nowhere else. -/
theorem record_left (h : Level s t) {e : Event} (he : e.isOwn = true) : Level (s.record e) t := by
  refine ⟨h.world, h.memories, h.executed, h.pulled, ?_⟩
  rw [calls_record he]
  exact h.calls

theorem call (h : Level s t) (d : Definition σ) (node : Node) (cause : Cause) (inputs : Inputs) :
    (t.call d node cause inputs).1 = (s.call d node cause inputs).1 ∧
      Level (s.call d node cause inputs).2 (t.call d node cause inputs).2 := by
  have houtcome := h.even.outcome d node inputs
  have heven := h.even.call rfl houtcome cause
  refine ⟨congrArg Outcome.outputs houtcome, heven.world, heven.memories, heven.executed,
    heven.pulled, ?_⟩
  rw [call_calls, call_calls, houtcome, h.calls]

end Level

/-- A connection that is not resolved delivers nothing. -/
theorem deliver_eq_or_resolved (p : Plan σ) (inputs : Inputs) (s : Pass σ) (conn : Connection) :
    deliver p (inputs, s) conn = (inputs, s) ∨
      ∃ outputs, .resolved conn outputs ∈ (deliver p (inputs, s) conn).2.events := by
  cases hsource : p.wiring.node? conn.fromNode with
  | none => exact Or.inl (by simp only [deliver, hsource])
  | some source =>
    cases hd : p.catalogue.get? source.kind with
    | none => exact Or.inl (by simp only [deliver, hsource, hd])
    | some d =>
      cases hport : d.isControlOutput conn.fromPort with
      | true => exact Or.inl (by simp only [deliver, hsource, hd, hport, if_true])
      | false =>
        refine Or.inr ⟨(pull p d source s).1, ?_⟩
        simp only [deliver, hsource, hd, hport, Bool.false_eq_true, if_false]
        split
        · exact List.mem_cons_self
        · exact List.mem_cons_of_mem _ List.mem_cons_self

/-- A dropped connection delivers nothing, as long as it stays idle. -/
theorem deliver_of_drops {p : Plan σ} {conn : Connection} {inputs : Inputs}
    (hdrops : g.drops c conn = true) (hclean : Clean (g.Idle c) (deliver p (inputs, s) conn).2) :
    deliver p (inputs, s) conn = (inputs, s) := by
  rcases deliver_eq_or_resolved p inputs s conn with h | ⟨outputs, hresolved⟩
  · exact h
  · have hidle : g.drops c conn = false := hclean _ hresolved
    cases hdrops.symm.trans hidle

/-- Nothing is delivered where all connections are dropped and stay idle. -/
theorem assemble_of_drops {p : Plan σ} {target : Node}
    (hdrops : ∀ conn ∈ p.wiring.connectionsTo target.id, g.drops c conn = true)
    (hclean : Clean (g.Idle c) (assemble p target s).2) : assemble p target s = ({}, s) := by
  have hwalk : assemble p target s =
      ((p.wiring.connectionsTo target.id).filter fun _ => false).foldl (fun b _ => b) ({}, s) := by
    refine Pairing.foldl Prod.snd ?_ ?_ ?_ rfl hclean
    · intro state conn hconn
      exact (pullSteps_deliver hconn state).events_subset
    · intro _ _ _ _ hkeep
      cases hkeep
    · rintro ⟨inputs, s⟩ _ conn hconn - rfl hclean
      exact deliver_of_drops (hdrops conn hconn) hclean
  rw [hwalk, List.filter_false]
  rfl

/-- A dropped connection leads nowhere, as long as it stays idle. -/
theorem level_unfollowed {room depth : Nat} {d : Definition σ} {node : Node} {outputs : Outputs}
    {conn : Connection} (hroom : depth + room = config.maxDepth) (hdrops : g.drops c conn = true)
    (hst : Level s t)
    (hclean : Clean (g.Idle c) (follow ⟨Wiring.ofGraph g, c, config⟩
      (descent ⟨Wiring.ofGraph g, c, config⟩ room depth) depth d node outputs s conn)) :
    Level (follow ⟨Wiring.ofGraph g, c, config⟩
      (descent ⟨Wiring.ofGraph g, c, config⟩ room depth) depth d node outputs s conn) t := by
  by_cases hopen : isOpen d outputs conn.fromPort = true
  · cases htarget : (Wiring.ofGraph g).node? conn.toNode with
    | none =>
      simp only [follow, hopen, if_true, htarget]
      exact hst.record_left rfl
    | some target =>
      cases room with
      | zero =>
        simp only [follow, hopen, if_true, htarget, descent]
        exact hst.record_left rfl
      | succ less =>
        rw [follow_of_open hopen htarget] at hclean ⊢
        rw [Wiring.node?_ofGraph] at htarget
        -- The connection is followed, so its target is of an unknown kind.
        have hless : depth + 1 + less = config.maxDepth := by omega
        have hassembled := hclean.of_subset (events_subset_push hless target _ _)
        have hfollowed : Event.followed conn depth ∈ (assemble ⟨Wiring.ofGraph g, c, config⟩ target
            (s.record (.followed conn depth))).2.events :=
          (pullSteps_assemble target).events_subset List.mem_cons_self
        have hnone : g.definition? c conn.toNode = none := hassembled _ hfollowed hdrops
        have hkind : c.get? target.kind = none := by
          simpa [Graph.definition?, htarget] using hnone
        have hid : target.id = conn.toNode := Graph.id_of_node? htarget
        have halone : ∀ into ∈ (Wiring.ofGraph g).connectionsTo target.id,
            g.drops c into = true := by
          intro into hinto
          rw [Wiring.connectionsTo_ofGraph, Graph.mem_connectionsTo] at hinto
          refine Graph.drops_of_unknown (n := target) ?_ hkind
          rw [hinto.2, hid]
          exact htarget
        rw [assemble_of_drops halone hassembled, push_of_unknown hkind]
        exact (hst.record_left rfl).record_left rfl
  · simp only [follow, hopen, Bool.false_eq_true, if_false]
    split
    · exact hst
    · exact hst.record_left rfl

/-- The passes over a graph and over the pruned graph stay level, as long as nothing dropped acts. -/
theorem pairing_pruned (g : Graph) (c : Catalogue σ) (config : ExecutorConfig) :
    Pairing ⟨Wiring.ofGraph g, c, config⟩ ⟨Wiring.ofGraph (g.pruned c), c, config⟩
      (fun _ => True) (fun conn => !g.drops c conn) (g.Idle c) Level := by
  constructor
  case maxDepth => rfl
  case outgoing =>
    intro id _
    rw [Wiring.connectionsFrom_ofGraph, Wiring.connectionsFrom_ofGraph]
    exact Graph.connectionsFrom_pruned id
  case incoming =>
    intro id _
    rw [Wiring.connectionsTo_ofGraph, Wiring.connectionsTo_ofGraph]
    exact Graph.connectionsTo_pruned id
  case target =>
    intro id _ conn _ hkeep
    rw [Wiring.node?_ofGraph, Wiring.node?_ofGraph]
    exact ⟨(Graph.node?_ends_of_kept hkeep).2, fun _ _ => trivial⟩
  case source =>
    intro id _ conn _ hkeep
    rw [Wiring.node?_ofGraph, Wiring.node?_ofGraph]
    exact ⟨(Graph.node?_ends_of_kept hkeep).1, fun _ _ => trivial⟩
  case kind => intro _ _ _ _; rfl
  case executed => intro s t id _ h; rw [h.executed]
  case told => intro s t e htells h; exact h.record htells.isOwn
  case entered =>
    intro s t id node d inputs depth _ _ _ _ h
    have hmarked : Level { s with executed := node.id :: s.executed }
        { t with executed := node.id :: t.executed } :=
      ⟨h.world, h.memories, congrArg (node.id :: ·) h.executed, h.pulled, h.calls⟩
    exact hmarked.call d node (.pushed depth) inputs
  case pulled =>
    intro s t id conn source d _ _ _ _ _ h
    refine pull_rel rfl (by rw [h.pulled]) h (h.call d source .pulled {}) ?_
    intro s t outputs h
    exact ⟨h.world, h.memories, h.executed, congrArg (·.insert source.id outputs) h.pulled, h.calls⟩
  case undelivered =>
    intro s t id conn inputs _ _ hkeep h hclean
    rw [deliver_of_drops (by simpa using hkeep) hclean]
    exact ⟨rfl, h⟩
  case unfollowed =>
    intro s t room depth d node outputs conn _ hroom _ hkeep h hclean
    exact level_unfollowed hroom (by simpa using hkeep) h hclean

end Pass

/-- As long as nothing that validation reports about kinds and ports acts, a graph and the pruned
graph run alike: the same runs with the same inputs and outputs lead to the same worlds and memories,
in any number of passes from any state. -/
theorem Executor.frames_pruned (g : Graph) (c : Catalogue σ) (config : ExecutorConfig)
    (hunhidden : Graph.Unhidden c g.nodes) (memories : Table NodeId Slot) (frame : Nat)
    (world : World σ) (hosts : List (World σ → World σ))
    (hidle : ∀ events ∈ (frames { (ofGraph g c config).1 with memories, frame } world hosts).2.2,
      ∀ e ∈ events, g.Idle c e) :
    SameFrames Event.calls (frames { (ofGraph g c config).1 with memories, frame } world hosts)
      (frames { (ofGraph (g.pruned c) c config).1 with memories, frame } world hosts) := by
  refine frames_agree (g.Idle c) ?_ hosts _ _ world ⟨rfl, rfl⟩ ⟨rfl, rfl⟩ rfl rfl hidle
  intro world memories hclean
  have hstarts : (ofGraph (g.pruned c) c config).1.startNodes =
      (ofGraph g c config).1.startNodes := Graph.startNodes_pruned hunhidden
  have hnodes : ∀ id ∈ (ofGraph g c config).1.startNodes,
      (Wiring.ofGraph (g.pruned c)).node? id = (Wiring.ofGraph g).node? id := by
    intro id hid
    rcases Wiring.mem_startNodes_iff.1 hid with ⟨n, d, hn, hd, -⟩
    rw [Wiring.node?_ofGraph, Wiring.node?_ofGraph, hn]
    exact Graph.node?_pruned_of_node? hn (Table.contains_iff.2 ⟨d, hd⟩)
  have hstart : Pass.Level { world, memories } { world, memories } := ⟨rfl, rfl, rfl, rfl, rfl⟩
  have hend := (Pass.pairing_pruned g c config).pass _ hnodes hstart hclean
  rw [hstarts]
  refine ⟨hend.world, hend.memories, ?_⟩
  simp only [Event.calls, List.filterMap_reverse]
  exact congrArg List.reverse hend.calls

/-- Two variables wait to be set when the play starts. Control flow enters a node of an unknown kind
on the way, and a port that nobody declares is linked to the second variable. -/
def Graph.broken : Graph where
  nodes := [.ofKind "start" "OnStart", .ofKind "ghost" "Unheard",
    (Node.ofKind "first" "SetVar").withProperty "varName" (.text "first"),
    (Node.ofKind "second" "SetVar").withProperty "varName" (.text "second")]
  connections :=
    [⟨"1", "start", "exec", "ghost", "exec"⟩, ⟨"2", "start", "nothing", "second", "value"⟩,
     ⟨"3", "start", "exec", "first", "exec"⟩]

/-- What is broken in the graph stays idle, and so it can be left out. -/
theorem Executor.frames_broken :
    let c : Catalogue HeadlessScene := .standard
    let e (g : Graph) : Executor HeadlessScene :=
      { (ofGraph g c ⟨.reinvoke, 8⟩).1 with memories := ∅, frame := 0 }
    let world : World HeadlessScene := .ofHost {} ⟨fun _ => "", 0⟩
    Graph.Unhidden c Graph.broken.nodes ∧
      (∀ events ∈ ((e Graph.broken).frames world [id, id]).2.2, ∀ event ∈ events,
        Graph.broken.Idle c event) ∧
      SameFrames Event.calls ((e Graph.broken).frames world [id, id])
        ((e (Graph.broken.pruned c)).frames world [id, id]) := by
  intro c e world
  have hunhidden : Graph.Unhidden c Graph.broken.nodes := by decide
  have hidle : ∀ events ∈ ((e Graph.broken).frames world [id, id]).2.2, ∀ event ∈ events,
      Graph.broken.Idle c event := by decide
  exact ⟨hunhidden, hidle, frames_pruned Graph.broken c _ hunhidden ∅ 0 world _ hidle⟩

/-! ## Connections that act although they are reported -/

/-- Control flow is linked to an input for data. -/
def Graph.misdirected : Graph where
  nodes := [.ofKind "start" "OnStart",
    (Node.ofKind "set" "SetVar").withProperty "varName" (.text "x")]
  connections := [⟨"1", "start", "exec", "set", "value"⟩]

/-- The only connection is reported for its ports, and yet it sets a variable. -/
theorem Executor.misdirected_acts :
    let c : Catalogue HeadlessScene := .standard
    let after (g : Graph) : World HeadlessScene :=
      ((ofGraph g c).1.frames (World.ofHost {} ⟨fun _ => "", 0⟩) [id]).2.1
    Graph.misdirected.issues c = [.incompatiblePorts "1" .control .any] ∧
      (after Graph.misdirected).value? "x" = some (.number (.plain 0)) ∧
      (after (Graph.misdirected.pruned c)).value? "x" = none := by
  decide

/-! ## Nodes of unknown kinds -/

/-- Without issues of ports, and with nothing but control flow into nodes of unknown kinds, whatever a
pass tells is idle. -/
theorem Pass.idle_of_tells {g : Graph} {c : Catalogue σ} {config : ExecutorConfig}
    (hports : ∀ conn ∈ g.connections, (connectionIssues g c conn).any Issue.isPort = false)
    (hcontrol : ∀ conn ∈ g.connections, g.hasUnknown c conn.toNode = true →
      ∀ d, g.definition? c conn.fromNode = some d → d.isControlOutput conn.fromPort = true)
    {e : Event} (h : Tells ⟨Wiring.ofGraph g, c, config⟩ e) : g.Idle c e := by
  -- A connection that leaves a node of a known kind is dropped for its target only.
  have hdrops : ∀ conn ∈ g.connections, ∀ n d, g.node? conn.fromNode = some n →
      c.get? n.kind = some d → g.drops c conn = g.hasUnknown c conn.toNode := by
    intro conn hconn n d hn hd
    have hsource : g.hasUnknown c conn.fromNode = false := by
      simp [Graph.hasUnknown, hn, Table.contains_iff.2 ⟨d, hd⟩]
    rw [Graph.drops, hsource, hports conn hconn, Bool.or_false, Bool.false_or]
  cases h with
  | resolved hconn hsource hd hport outputs =>
    rw [Wiring.connectionsTo_ofGraph, Graph.mem_connectionsTo] at hconn
    rw [Wiring.node?_ofGraph] at hsource
    refine Bool.eq_false_iff.2 fun hdropped => ?_
    rw [hdrops _ hconn.1 _ _ hsource hd] at hdropped
    have hdefinition := Graph.definition?_eq_some_iff.2 ⟨_, hsource, hd⟩
    cases hport.symm.trans (hcontrol _ hconn.1 hdropped _ hdefinition)
  | @followed _ _ target _ _ hnode hd hconn htarget depth =>
    rw [Wiring.connectionsFrom_ofGraph, Graph.mem_connectionsFrom] at hconn
    rw [Wiring.node?_ofGraph] at hnode htarget
    rw [Graph.id_of_node? hnode] at hconn
    intro hdropped
    rw [hdrops _ hconn.1 _ _ (by rw [hconn.2]; exact hnode) hd] at hdropped
    have hkind : c.get? target.kind = none := by
      simpa [Graph.hasUnknown, htarget, Table.contains_eq_false_iff] using hdropped
    simp [Graph.definition?, htarget, hkind]
  | _ => trivial

/-- Nodes of unknown kinds are inert where no data is wired into them: without issues of ports, they
can be left out with all connections that touch them, and nothing runs differently. -/
theorem Executor.frames_pruned_of_control (g : Graph) (c : Catalogue σ) (config : ExecutorConfig)
    (hunhidden : Graph.Unhidden c g.nodes)
    (hports : ∀ conn ∈ g.connections, (connectionIssues g c conn).any Issue.isPort = false)
    (hcontrol : ∀ conn ∈ g.connections, g.hasUnknown c conn.toNode = true →
      ∀ d, g.definition? c conn.fromNode = some d → d.isControlOutput conn.fromPort = true)
    (memories : Table NodeId Slot) (frame : Nat) (world : World σ)
    (hosts : List (World σ → World σ)) :
    SameFrames Event.calls (frames { (ofGraph g c config).1 with memories, frame } world hosts)
      (frames { (ofGraph (g.pruned c) c config).1 with memories, frame } world hosts) := by
  have htold : ∀ world memories, ∀ e ∈
      ((ofGraph g c config).1.plan.pass (ofGraph g c config).1.startNodes world memories).events,
      g.Idle c e := by
    intro world memories
    have hcall : ∀ (s : Pass σ) d node cause inputs, (∀ e ∈ s.events, g.Idle c e) →
        ∀ e ∈ (s.call d node cause inputs).2.events, g.Idle c e := by
      intro s d node cause inputs hs e he
      rw [Pass.call_events, List.mem_cons, List.mem_append, List.mem_reverse, List.mem_map] at he
      rcases he with rfl | ⟨n, -, rfl⟩ | he
      · trivial
      · trivial
      · exact hs e he
    refine Plan.pass_of_tells (I := fun s => ∀ e ∈ s.events, g.Idle c e) ?_ ?_ ?_ _ ?_
    · intro s e htells hs
      exact List.forall_mem_cons.2 ⟨Pass.idle_of_tells hports hcontrol htells, hs⟩
    · intro s id node d depth inputs _ _ _ hs
      exact hcall { s with executed := node.id :: s.executed } d node (.pushed depth) inputs hs
    · intro s id conn source d _ _ _ _ hs
      exact Pass.pull_invariant (I := fun s => ∀ e ∈ s.events, g.Idle c e) hs
        (hcall s d source .pulled {} hs) fun _ _ ht => ht
    · intro e he
      cases he
  refine frames_pruned g c config hunhidden memories frame world hosts ?_
  refine frames_forall ?_ hosts _ world ⟨rfl, rfl⟩
  intro world memories e he
  exact htold world memories e (List.mem_reverse.1 he)

end GraphScript

import GraphScript.Proofs.ExecutorRuns
import GraphScript.Proofs.MergedGraphs
import GraphScript.Proofs.PassPairs

/-!
# TidyGraphs — repeated nodes and dangling connections do nothing

A graph is tidied up by leaving out every node whose id was declared before, and every connection that
lacks its source or its target.

- `Graph.startNodes_tidy`, `Graph.node?_tidy` — whatever is found in the graph is found in the tidy one;
- `Pass.Abreast` — two passes have come equally far, and differ at most in what they note;
- `Executor.frames_tidy` — a graph and the tidy graph stay abreast in all passes, from any state.

The walk comes across a connection without source when it assembles inputs, where it is passed over, and
across one without target when it follows connections, where it is noted.
-/

namespace GraphScript

variable {σ : Type}

namespace Graph

/-! ## The tidy graph -/

def joins (g : Graph) (conn : Connection) : Bool :=
  (g.node? conn.fromNode).isSome && (g.node? conn.toNode).isSome

/-- The graph without nodes whose ids were declared before, and without dangling connections. -/
def tidy (g : Graph) : Graph where
  nodes := g.nodes.eraseDupsBy fun m n => m.id == n.id
  connections := g.connections.filter g.joins

theorem startNodes_tidy (g : Graph) (c : Catalogue σ) :
    (Wiring.ofGraph g.tidy).startNodes c = (Wiring.ofGraph g).startNodes c := by
  rw [Wiring.startNodes, Wiring.startNodes, Wiring.values_ofGraph, Wiring.values_ofGraph, tidy,
    eraseDupsBy_eraseDupsBy]

theorem node?_tidy (g : Graph) (id : NodeId) : g.tidy.node? id = g.node? id := by
  have hhead : ∀ ns : List Node, (ns.eraseDupsBy fun m n => m.id == n.id).head? = ns.head? := by
    intro ns
    cases ns with
    | nil => rfl
    | cons n ns => simp [List.eraseDupsBy_cons]
  -- The first one of the nodes under an id is none of the repeats.
  calc g.tidy.node? id
      = ((g.nodes.eraseDupsBy fun m n => m.id == n.id).filter (·.id = id)).head? :=
        List.head?_filter.symm
    _ = ((g.nodes.filter (·.id = id)).eraseDupsBy fun m n => m.id == n.id).head? :=
        congrArg List.head? (eraseDupsBy_filter_id (fun other => other = id) g.nodes).symm
    _ = g.node? id := (hhead _).trans List.head?_filter

theorem connectionsFrom_tidy (g : Graph) (id : NodeId) :
    g.tidy.connectionsFrom id = (g.connectionsFrom id).filter g.joins :=
  List.filter_comm _ _ _

theorem connectionsTo_tidy (g : Graph) (id : NodeId) :
    g.tidy.connectionsTo id = (g.connectionsTo id).filter g.joins :=
  List.filter_comm _ _ _

end Graph

def Event.isNote : Event → Bool
  | .noted _ => true
  | _ => false

/-- What happens among the events, other than notes. -/
def Event.acts (events : List Event) : List Event := events.filter (!·.isNote)

namespace Pass

variable {p q : Plan σ} {s t : Pass σ} {room depth : Nat} {node : Node} {inputs : Inputs}
  {d : Definition σ} {outputs : Outputs} {conn : Connection}

/-! ## Passes abreast of each other -/

/-- Two passes have come equally far, and differ at most in what they note. -/
structure Abreast (s t : Pass σ) : Prop extends Even s t where
  acts : Event.acts t.events = Event.acts s.events

namespace Abreast

theorem record (h : Abreast s t) (e : Event) : Abreast (s.record e) (t.record e) := by
  have hacts : t.events.filter (!·.isNote) = s.events.filter (!·.isNote) := h.acts
  refine ⟨⟨h.world, h.memories, h.executed, h.pulled⟩, ?_⟩
  simp only [Event.acts, Pass.record, List.filter_cons, hacts]

/-- What the first pass notes alone puts it nowhere else. -/
theorem note_left (h : Abreast s t) (n : Note) : Abreast (s.note n) t :=
  ⟨⟨h.world, h.memories, h.executed, h.pulled⟩, h.acts⟩

theorem call (h : Abreast s t) (d : Definition σ) (node : Node) (cause : Cause) (inputs : Inputs) :
    (t.call d node cause inputs).1 = (s.call d node cause inputs).1 ∧
      Abreast (s.call d node cause inputs).2 (t.call d node cause inputs).2 := by
  have houtcome := h.toEven.outcome d node inputs
  have hacts : t.events.filter (!·.isNote) = s.events.filter (!·.isNote) := h.acts
  refine ⟨congrArg Outcome.outputs houtcome, h.toEven.call rfl houtcome cause, ?_⟩
  simp only [Event.acts, call_events, houtcome, List.filter_cons, List.filter_append, hacts]

theorem enter (h : Abreast s t) (d : Definition σ) (node : Node) (depth : Nat) (inputs : Inputs) :
    (t.enter d node depth inputs).1 = (s.enter d node depth inputs).1 ∧
      Abreast (s.enter d node depth inputs).2 (t.enter d node depth inputs).2 := by
  have hmarked : Abreast { s with executed := node.id :: s.executed }
      { t with executed := node.id :: t.executed } := ⟨h.toEven.mark node.id, h.acts⟩
  exact hmarked.call d node (.pushed depth) inputs

theorem pull (h : Abreast s t) (hpolicy : q.config.pullPolicy = p.config.pullPolicy)
    (d : Definition σ) (node : Node) :
    (pull q d node t).1 = (pull p d node s).1 ∧
      Abreast (pull p d node s).2 (pull q d node t).2 := by
  refine pull_rel hpolicy (by rw [h.pulled]) h (h.call d node .pulled {}) ?_
  exact fun s t outputs h => ⟨h.toEven.keep node.id outputs, h.acts⟩

end Abreast

/-! ## Dangling connections -/

/-- A connection from nowhere delivers nothing. -/
theorem deliver_of_missing (hsource : p.wiring.node? conn.fromNode = none) :
    deliver p (inputs, s) conn = (inputs, s) := by
  simp only [deliver, hsource]

-- Which note it is depends on whether the connection is open.
/-- A connection to nowhere is at most noted. -/
theorem follow_of_missing (descend : Option (Node → Inputs → Pass σ → Pass σ))
    (htarget : p.wiring.node? conn.toNode = none) :
    follow p descend depth d node outputs s conn = s ∨
      ∃ n, follow p descend depth d node outputs s conn = s.note n := by
  unfold follow
  split
  · simp only [htarget]
    exact Or.inr ⟨_, rfl⟩
  · split
    · exact Or.inl rfl
    · exact Or.inr ⟨_, rfl⟩

/-- The walks through a graph and through the tidy graph stay abreast of each other.  They stay at nodes
of the graph, so a connection that dangles does so at its other end. -/
theorem pairing_tidy (g : Graph) (c : Catalogue σ) (config : ExecutorConfig) :
    Pairing (g.plan c config) (g.tidy.plan c config) (fun id => (g.node? id).isSome = true) g.joins
      (fun _ => True) Abreast := by
  have hkept : ∀ id, (g.tidy.plan c config).wiring.node? id = (g.plan c config).wiring.node? id := by
    intro id
    rw [Wiring.node?_ofGraph, Wiring.node?_ofGraph, g.node?_tidy]
  have hinside : ∀ {id n}, (g.plan c config).wiring.node? id = some n →
      (g.node? n.id).isSome = true := by
    intro id n hn
    rw [Wiring.node?_ofGraph] at hn
    rw [Graph.id_of_node? hn, hn]
    rfl
  constructor
  case maxDepth => rfl
  case outgoing =>
    intro id _
    rw [Wiring.connectionsFrom_ofGraph, Wiring.connectionsFrom_ofGraph, g.connectionsFrom_tidy]
  case incoming =>
    intro id _
    rw [Wiring.connectionsTo_ofGraph, Wiring.connectionsTo_ofGraph, g.connectionsTo_tidy]
  case target => exact fun id _ conn _ _ => ⟨hkept _, fun n hn => hinside hn⟩
  case source => exact fun id _ conn _ _ => ⟨hkept _, fun n hn => hinside hn⟩
  case kind => intro _ _ _ _; rfl
  case executed => intro s t id _ h; rw [h.executed]
  case told => intro s t e _ h; exact h.record e
  case entered => intro s t id node d inputs depth _ _ _ _ h; exact h.enter d node depth inputs
  case pulled => intro s t id conn source d _ _ _ _ _ h; exact h.pull rfl d source
  case undelivered =>
    intro s t id conn inputs hin hconn hkeep h _
    rw [Wiring.connectionsTo_ofGraph, Graph.mem_connectionsTo] at hconn
    -- The target is there, so it is the source that is missing.
    have hmissing : (g.plan c config).wiring.node? conn.fromNode = none := by
      simpa [Graph.joins, hconn.2, hin] using hkeep
    rw [deliver_of_missing hmissing]
    exact ⟨rfl, h⟩
  case unfollowed =>
    intro s t room depth d node outputs conn hin _ hconn hkeep h _
    rw [Wiring.connectionsFrom_ofGraph, Graph.mem_connectionsFrom] at hconn
    -- The source is there, since the walk is at it.
    have hmissing : (g.plan c config).wiring.node? conn.toNode = none := by
      simpa [Graph.joins, hconn.2, hin] using hkeep
    rcases follow_of_missing _ hmissing with hsame | ⟨n, hnoted⟩
    · rw [hsame]
      exact h
    · rw [hnoted]
      exact h.note_left n

/-- A pass over a graph and a pass over the tidy graph end abreast. -/
theorem abreast_passEnd (g : Graph) (c : Catalogue σ) (config : ExecutorConfig) (world : World σ)
    (memories : Table NodeId Slot) :
    Abreast (Executor.passEnd g c config world memories)
      (Executor.passEnd g.tidy c config world memories) := by
  unfold Executor.passEnd Plan.pass
  rw [g.startNodes_tidy c]
  refine List.foldl_rel ⟨⟨rfl, rfl, rfl, rfl⟩, rfl⟩ ?_
  intro id hid s t hst
  refine (pairing_tidy g c config).start ?_ ?_ hst (fun _ _ => trivial)
  · rw [Wiring.node?_ofGraph, Wiring.node?_ofGraph, g.node?_tidy]
  · intro n hn
    rw [Wiring.node?_ofGraph] at hn
    rw [Graph.id_of_node? hn, hn]
    rfl

end Pass

/-- Repeated nodes and dangling connections do nothing.  With them and without them a graph has the same
start nodes, and any passes from any state lead to the same worlds and memories.  All that happens in the
passes is the same too, but for what they note. -/
theorem Executor.frames_tidy (g : Graph) (c : Catalogue σ) (config : ExecutorConfig)
    (memories : Table NodeId Slot) (frame : Nat) (world : World σ)
    (hosts : List (World σ → World σ)) :
    (ofGraph g.tidy c config).1.startNodes = (ofGraph g c config).1.startNodes ∧
      SameFrames Event.acts (frames { (ofGraph g c config).1 with memories, frame } world hosts)
        (frames { (ofGraph g.tidy c config).1 with memories, frame } world hosts) := by
  refine ⟨g.startNodes_tidy c, ?_⟩
  refine frames_agree (fun _ => True) ?_ hosts _ _ world ⟨rfl, rfl⟩ ⟨rfl, rfl⟩ rfl rfl
    (fun _ _ _ _ => trivial)
  intro world memories _
  have hend := Pass.abreast_passEnd g c config world memories
  refine ⟨hend.world, hend.memories, ?_⟩
  calc Event.acts (passEnd g.tidy c config world memories).events.reverse
      = (Event.acts (passEnd g.tidy c config world memories).events).reverse := List.filter_reverse
    _ = (Event.acts (passEnd g c config world memories).events).reverse := by rw [hend.acts]
    _ = Event.acts (passEnd g c config world memories).events.reverse := List.filter_reverse.symm

/-- The second node under an id goes, and so does the connection to a node that is not there. -/
example : Graph.tidy
    { nodes := [.ofKind "start" "OnStart", .ofKind "start" "SetVar"]
      connections := [⟨"1", "start", "exec", "nowhere", "exec"⟩] } =
    { nodes := [.ofKind "start" "OnStart"], connections := [] } := rfl

end GraphScript

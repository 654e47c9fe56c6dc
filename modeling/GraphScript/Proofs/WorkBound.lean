import GraphScript.Proofs.Coverage
import GraphScript.Proofs.Pulls
import Mathlib.Algebra.Order.BigOperators.Group.List
import Mathlib.Algebra.Order.Ring.Nat

/-!
# WorkBound — how much work a pass does at most

However deep the walk may go, it is paid for by pushes: a connection is followed behind a push of the
node that it leaves, and without connections into frame triggers every node is pushed at most once.

- `Pass.Spends` — between two states of a walk a connection was followed at most so often for each push of
  its source; `Pass.spends_push` and `Plan.spends_pass` say so of a push and of a pass;
- `Pass.Over.pushed_le_card` — there are no more pushes than ids of nodes of known kinds;
- `Pass.walkInvariant_paid` — there are no more pulls than connections that were resolved;
- `Executor.workBound` — the bounds on pushes, connections and pulls together.
-/

namespace GraphScript

variable {σ : Type}

def Graph.knownIds (g : Graph) (c : Catalogue σ) : Finset NodeId :=
  (g.nodes.map (·.id)).toFinset.filter fun id => (g.definition? c id).isSome

/-- Bounds on what happens in a pass.

- There are no more pushes than ids of nodes of known kinds.
- No connection is followed more often than it is declared.
- There are no more pulls than connections into the targets of all connections together. -/
structure WorkBound (g : Graph) (c : Catalogue σ) (events : List Event) : Prop where
  pushes : (Event.calls events).countP (·.isPush) ≤ (g.knownIds c).card
  followed : (Event.followedConnections events).Subperm g.connections
  pulls : (Event.calls events).countP (fun call => !call.isPush) ≤
    (g.connections.map fun conn => (g.connectionsTo conn.toNode).length).sum

namespace Pass

variable {p : Plan σ} {s t u : Pass σ} {conn : Connection} {k m n : Nat}

/-! ## Connections are paid for by pushes -/

def follows (conn : Connection) (s : Pass σ) : Nat := s.links.followed.count conn

/-- From one state to a later one, the connection was followed at most `k` times for each push of the node
that it leaves, and at most `extra` times besides. -/
def Spends (conn : Connection) (k extra : Nat) (s t : Pass σ) : Prop :=
  t.follows conn + k * pushes conn.fromNode s.calls ≤
    s.follows conn + k * pushes conn.fromNode t.calls + extra

namespace Spends

/-- Expenses add up. -/
theorem trans (hst : Spends conn k m s t) (htu : Spends conn k n t u) :
    Spends conn k (m + n) s u := by
  unfold Spends at *
  omega

theorem of_eq (hfollows : t.follows conn = s.follows conn)
    (hpushes : pushes conn.fromNode t.calls = pushes conn.fromNode s.calls) :
    Spends conn k 0 s t := by
  rw [Spends, hfollows, hpushes]
  exact Nat.le_refl _

theorem refl (conn : Connection) (k : Nat) (s : Pass σ) : Spends conn k 0 s s := of_eq rfl rfl

theorem note (s : Pass σ) (n : Note) : Spends conn k 0 s (s.note n) := of_eq rfl rfl

end Spends

/-- Pulling pushes nothing. -/
theorem PullSteps.pushes_eq (h : PullSteps p s t) (id : NodeId) :
    pushes id t.calls = pushes id s.calls := by
  induction h with
  | refl => rfl
  | tail _ hlast ih =>
    rw [← ih]
    cases hlast with
    | told e he => rw [calls_record he]
    | kept id' outputs => rfl
    | pulled =>
      rw [call_calls, pushes, List.countP_cons]
      rfl

/-- Following one connection is no more than following it: the pulls behind it follow nothing. -/
theorem spends_arrive (s : Pass σ) (conn' : Connection) (depth : Nat) (target : Node) :
    Spends conn k ([conn'].count conn) s
      (assemble p target (s.record (.followed conn' depth))).2 := by
  have hpushes : pushes conn.fromNode (assemble p target (s.record (.followed conn' depth))).2.calls =
      pushes conn.fromNode s.calls :=
    (pullSteps_arrive conn' depth target).pushes_eq conn.fromNode
  have hfollows : (assemble p target (s.record (.followed conn' depth))).2.follows conn =
      s.follows conn + [conn'].count conn := by
    rw [follows, links_assemble, links_followed, List.count_append]
    rfl
  rw [Spends, hpushes, hfollows]
  omega

/-- A push pays for what follows it, at most `k` times each connection from its node. -/
theorem spends_enter (s : Pass σ) (d : Definition σ) (node : Node) (depth : Nat) (inputs : Inputs)
    (ht : Spends conn k m (s.enter d node depth inputs).2 t)
    (hration : m ≤ if node.id = conn.fromNode then k else 0) : Spends conn k 0 s t := by
  have hfollows : (s.enter d node depth inputs).2.follows conn = s.follows conn :=
    congrArg (fun l : Links => l.followed.count conn)
      (links_call { s with executed := node.id :: s.executed } d node (.pushed depth) inputs)
  have hpushes : pushes conn.fromNode (s.enter d node depth inputs).2.calls =
      pushes conn.fromNode s.calls + if node.id = conn.fromNode then 1 else 0 := by
    rw [enter_calls, pushes, List.countP_cons, ← pushes]
    simp [Call.isPush]
  rw [Spends, hfollows, hpushes, Nat.mul_add] at ht
  rw [Spends]
  split at hration
  · rename_i hid
    rw [if_pos hid] at ht
    omega
  · rename_i hid
    rw [if_neg hid] at ht
    omega

/-- If pushes with less room are paid for, following a connection spends no more than this connection. -/
theorem spends_follow {room depth : Nat} {d : Definition σ} {node : Node} {outputs : Outputs}
    (hless : ∀ less, room = less + 1 → ∀ target inputs s,
      Spends conn k 0 s (push p less (depth + 1) target inputs s)) (s : Pass σ)
    (conn' : Connection) :
    Spends conn k ([conn'].count conn) s
      (follow p (descent p room depth) depth d node outputs s conn') := by
  -- Where nothing is followed, nothing is spent.
  have hsaved : ∀ t, Spends conn k 0 s t → Spends conn k ([conn'].count conn) s t := by
    intro t ht
    unfold Spends at *
    omega
  unfold follow
  split
  · split
    · exact hsaved _ (.note s _)
    · rename_i target htarget
      cases room with
      | zero => exact hsaved _ (.note s _)
      | succ less => exact (spends_arrive s conn' depth target).trans (hless less rfl target _ _)
  · split
    · exact hsaved _ (.refl conn k s)
    · exact hsaved _ (.note s _)

theorem spends_foldl {f : Pass σ → Connection → Pass σ}
    (hf : ∀ s conn', Spends conn k ([conn'].count conn) s (f s conn')) (conns : List Connection)
    (s : Pass σ) : Spends conn k (conns.count conn) s (conns.foldl f s) := by
  induction conns generalizing s with
  | nil => exact .refl conn k s
  | cons conn' conns ih =>
    rw [← List.singleton_append, List.count_append]
    exact (hf s conn').trans (ih _)

/-- A push pays for all that it brings about. -/
theorem spends_push (hration : ∀ id, (p.wiring.connectionsFrom id).count conn ≤
      if id = conn.fromNode then k else 0) (room depth : Nat) (node : Node) (inputs : Inputs)
    (s : Pass σ) : Spends conn k 0 s (push p room depth node inputs s) := by
  -- The induction is on the room below the node: each push behind it pays for itself.
  refine level_induction (P := fun room depth =>
    ∀ node inputs s, Spends conn k 0 s (push p room depth node inputs s)) ?_ room depth node inputs s
  intro room depth hless node inputs s
  cases hd : p.catalogue.get? node.kind with
  | none =>
    rw [push_of_unknown hd]
    exact .note s _
  | some d =>
    by_cases hmay : MayEnter d node s
    · rw [push_of_mayEnter hd hmay]
      split
      · exact spends_enter s d node depth inputs (.refl conn k _) (Nat.zero_le _)
      · -- One push of the node pays for all connections that leave it.
        refine spends_enter s d node depth inputs
          ((Spends.note _ _).trans (spends_foldl (spends_follow hless) _ _)) ?_
        rw [Nat.zero_add]
        exact hration node.id
    · rw [push_of_executed hd hmay]
      exact .refl conn k s

theorem spends_start (hration : ∀ id, (p.wiring.connectionsFrom id).count conn ≤
      if id = conn.fromNode then k else 0) (s : Pass σ) (id : NodeId) :
    Spends conn k 0 s (start p s id) := by
  unfold start
  split
  · exact .refl conn k s
  · exact spends_push hration _ _ _ _ s

end Pass

/-- A connection is followed at most `k` times for each push of its source. -/
theorem Plan.spends_pass {p : Plan σ} {conn : Connection} {k : Nat}
    (hration : ∀ id, (p.wiring.connectionsFrom id).count conn ≤ if id = conn.fromNode then k else 0)
    (starts : List NodeId) (world : World σ) (memories : Table NodeId Slot) :
    Pass.Spends conn k 0 { world, memories } (p.pass starts world memories) :=
  List.foldlRecOn (motive := Pass.Spends conn k 0 { world, memories }) starts (Pass.start p)
    (.refl conn k _) fun _ hs id _ => hs.trans (Pass.spends_start hration _ id)

namespace Pass

variable {p : Plan σ} {g : Graph} {c : Catalogue σ} {config : ExecutorConfig} {s : Pass σ}

/-! ## Pushes are counted by nodes -/

/-- Where no node is pushed twice, there are no more pushes than ids. -/
theorem Over.pushed_le_card (h : Over g c config s)
    (hplain : ∀ conn ∈ g.connections, g.isTrigger c conn.toNode = false) :
    s.calls.countP (·.isPush) ≤ (g.knownIds c).card := by
  let ids := (s.calls.filter (·.isPush)).map (·.node.id)
  have hnodup : ids.Nodup := by
    refine List.nodup_iff_count_le_one.2 fun id => ?_
    have honce := h.pushed_atMostOnce hplain id
    rw [List.countP_reverse] at honce
    rw [List.count, List.countP_map, List.countP_filter]
    refine Nat.le_trans (Nat.le_of_eq (List.countP_congr ?_)) honce
    intro call _
    simp [and_comm]
  have hknown : ids.toFinset ⊆ g.knownIds c := by
    intro id hid
    rcases List.mem_map.1 (List.mem_toFinset.1 hid) with ⟨call, hcall, rfl⟩
    have hrun : call ∈ s.calls.reverse := List.mem_reverse.2 (List.mem_of_mem_filter hcall)
    refine Finset.mem_filter.2 ⟨List.mem_toFinset.2 ?_, ?_⟩
    · exact List.mem_map.2 ⟨call.node, Graph.mem_of_node? (h.known hrun).1, rfl⟩
    · exact Option.isSome_iff_exists.2 (h.exists_definition hrun)
  calc s.calls.countP (·.isPush) = ids.length := by rw [List.countP_eq_length_filter, List.length_map]
    _ = ids.toFinset.card := (List.toFinset_card_of_nodup hnodup).symm
    _ ≤ (g.knownIds c).card := Finset.card_le_card hknown

/-! ## Pulls are counted by connections -/

/-- There were no more pulls than connections that were resolved. -/
def Paid (s : Pass σ) : Prop :=
  s.calls.countP (fun call => !call.isPush) ≤ s.links.resolved.length

theorem walkInvariant_paid (p : Plan σ) : WalkInvariant p Paid := by
  constructor
  case noted => exact fun s n _ hs => hs
  case entered =>
    intro s node d depth inputs _ _ _ hs
    have hlinks : (s.enter d node depth inputs).2.links = s.links :=
      links_call { s with executed := node.id :: s.executed } d node (.pushed depth) inputs
    rw [Paid, hlinks, enter_calls, List.countP_cons]
    exact hs
  case resolved =>
    intro s target conn source d _ _ _ _ hs
    have hcalls : (pull p d source s).2.calls.countP (fun call => !call.isPush) ≤
        s.calls.countP (fun call => !call.isPush) + 1 := by
      refine pull_invariant (I := fun t => t.calls.countP (fun call => !call.isPush) ≤
        s.calls.countP (fun call => !call.isPush) + 1) (Nat.le_succ _) ?_ (fun _ _ ht => ht)
      rw [call_calls, List.countP_cons]
      exact Nat.le_refl _
    rw [Paid, links_resolved, links_pull, calls_record rfl, List.length_append]
    exact Nat.le_trans hcalls (Nat.succ_le_succ hs)
  case followed => exact fun s conn depth _ _ _ hs => hs

/-- There are no more pulls in a pass than connections resolved in it. -/
theorem paid_passEnd (g : Graph) (c : Catalogue σ) (config : ExecutorConfig) (world : World σ)
    (memories : Table NodeId Slot) : (Executor.passEnd g c config world memories).Paid :=
  Plan.invariant_of_walk (Wiring.keyed_ofGraph g) (walkInvariant_paid (g.plan c config)) _
    (Nat.le_refl _)

/-! ## Finished passes -/

/-- No connection is followed more often than it is declared. -/
theorem followed_subperm (hplain : ∀ conn ∈ g.connections, g.isTrigger c conn.toNode = false)
    (config : ExecutorConfig) (world : World σ) (memories : Table NodeId Slot) :
    (Executor.passEnd g c config world memories).links.followed.Subperm g.connections := by
  refine List.subperm_ext_iff.2 fun conn _ => ?_
  have hcount : ∀ id, (g.connectionsFrom id).count conn =
      if id = conn.fromNode then g.connections.count conn else 0 := by
    intro id
    by_cases hid : id = conn.fromNode
    · rw [if_pos hid, Graph.connectionsFrom, List.count_filter]
      simp [hid]
    · rw [if_neg hid, List.count_eq_zero, Graph.mem_connectionsFrom]
      exact fun hmem => hid hmem.2.symm
  have hration : ∀ id, ((g.plan c config).wiring.connectionsFrom id).count conn ≤
      if id = conn.fromNode then g.connections.count conn else 0 := by
    intro id
    rw [Wiring.connectionsFrom_ofGraph, hcount]
  have hspends : Spends conn (g.connections.count conn) 0 { world, memories }
      (Executor.passEnd g c config world memories) :=
    (g.plan c config).spends_pass hration _ world memories
  have honce := (over_passEnd g c config world memories).pushed_atMostOnce hplain conn.fromNode
  rw [List.countP_reverse, ← pushes] at honce
  -- Nothing was followed before the pass, and its source was pushed at most once.
  calc (Executor.passEnd g c config world memories).links.followed.count conn
      ≤ g.connections.count conn *
          pushes conn.fromNode (Executor.passEnd g c config world memories).calls := by
        simpa [Spends, follows, links, pushes, calls, Event.calls, Event.followedConnections]
          using hspends
    _ ≤ g.connections.count conn := by
        simpa using Nat.mul_le_mul_left (g.connections.count conn) honce

theorem pulled_le_sum (hplain : ∀ conn ∈ g.connections, g.isTrigger c conn.toNode = false)
    (config : ExecutorConfig) (world : World σ) (memories : Table NodeId Slot) :
    (Executor.passEnd g c config world memories).calls.countP (fun call => !call.isPush) ≤
      (g.connections.map fun conn => (g.connectionsTo conn.toNode).length).sum := by
  have hresolved := resolved_passEnd g c config world memories
  have hpaid := paid_passEnd g c config world memories
  rcases followed_subperm hplain config world memories with ⟨conns, hperm, hsub⟩
  unfold Paid at hpaid
  generalize Executor.passEnd g c config world memories = s at *
  calc s.calls.countP (fun call => !call.isPush)
      ≤ s.links.resolved.length := hpaid
    _ = (s.links.followed.map fun conn => (g.dataInto c conn.toNode).length).sum := by
        rw [hresolved, List.length_flatMap]
    _ ≤ (s.links.followed.map fun conn => (g.connectionsTo conn.toNode).length).sum :=
        List.sum_le_sum fun conn _ => List.length_filter_le _ _
    _ = (conns.map fun conn => (g.connectionsTo conn.toNode).length).sum :=
        (hperm.symm.map _).sum_nat
    _ ≤ (g.connections.map fun conn => (g.connectionsTo conn.toNode).length).sum :=
        (hsub.map _).sum_le_sum fun _ _ => Nat.zero_le _

end Pass

/-- In a graph without connections into frame triggers a pass does a bounded amount of work, whatever the
limits of the walk. -/
theorem Executor.workBound (g : Graph) (c : Catalogue σ) (config : ExecutorConfig)
    (hplain : ∀ conn ∈ g.connections, g.isTrigger c conn.toNode = false) (turns : List (Turn σ))
    (world : World σ) :
    WorkBound g c (((ofGraph g c config).1.after turns).execute world).2.2 := by
  rw [events_after]
  generalize ((ofGraph g c config).1.after turns).memories = memories
  have hfollowed := Pass.followed_subperm hplain config world memories
  constructor
  case pushes =>
    rw [Pass.calls_reverse, List.countP_reverse]
    exact (Pass.over_passEnd g c config world memories).pushed_le_card hplain
  case followed =>
    rw [Event.followedConnections, List.filterMap_reverse]
    exact hfollowed
  case pulls =>
    rw [Pass.calls_reverse, List.countP_reverse]
    exact Pass.pulled_le_sum hplain config world memories

/-- Two ways lead to a node, which takes a value from a third one. -/
def Graph.twoWays : Graph where
  nodes := [.ofKind "start" "OnStart", .ofKind "left" "SetVar", .ofKind "right" "SetVar",
    .ofKind "source" "GetVariable", .ofKind "both" "SetVar"]
  connections :=
    [⟨"1", "start", "exec", "left", "exec"⟩, ⟨"2", "start", "exec", "right", "exec"⟩,
     ⟨"3", "left", "exec", "both", "exec"⟩, ⟨"4", "right", "exec", "both", "exec"⟩,
     ⟨"5", "source", "value", "both", "value"⟩]

/-- Both ways are followed and pull the value, and its end is pushed once. -/
theorem Executor.workBound_twoWays :
    (∀ conn ∈ Graph.twoWays.connections,
      Graph.twoWays.isTrigger (Catalogue.standard : Catalogue HeadlessScene) conn.toNode = false) ∧
    (((ofGraph Graph.twoWays Catalogue.standard).1.after []).runs
      (World.ofHost ({} : HeadlessScene) ⟨fun _ => "", 0⟩)).map
        (fun call => (call.node.id, call.isPush)) =
      [("start", true), ("left", true), ("source", false), ("both", true), ("right", true),
        ("source", false)] ∧
    WorkBound Graph.twoWays (Catalogue.standard : Catalogue HeadlessScene)
      (((ofGraph Graph.twoWays Catalogue.standard).1.after []).execute
        (World.ofHost ({} : HeadlessScene) ⟨fun _ => "", 0⟩)).2.2 := by
  have hplain : ∀ conn ∈ Graph.twoWays.connections,
      Graph.twoWays.isTrigger (Catalogue.standard : Catalogue HeadlessScene) conn.toNode = false := by
    decide
  exact ⟨hplain, rfl, workBound Graph.twoWays Catalogue.standard {} hplain [] _⟩

end GraphScript

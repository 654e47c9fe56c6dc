import GraphScript.Proofs.Coverage
import GraphScript.Proofs.PassPairs
import GraphScript.Proofs.Ticks

/-!
# DepthRoom — depth limits that are out of reach

The depth limit cuts off pushes only where too many stand inside each other.  In a graph without
connections into frame triggers every node is pushed at most once, so the pushes that stand inside each
other are pushes of different nodes, and there are never more of them than nodes.

- `Pass.Over.depth_lt_card` — so a push is less deep than there are ids of nodes;
- `Pass.push_deeper` — a walk that stays above the limit is the same walk under every larger limit, and
  nothing is cut off in it;
- `Executor.roomy` — so all limits that leave room for every node are the same limit.

With connections into frame triggers there is no such limit: a trigger may be pushed again and again.
-/

namespace GraphScript

variable {σ : Type}

/-! ## How deep pushes are -/

namespace Pass.Over

variable {g : Graph} {c : Catalogue σ} {config : ExecutorConfig} {s : Pass σ}

/-- A node that is pushed is pushed by one run only. -/
theorem push_unique (h : Over g c config s)
    (hplain : ∀ conn ∈ g.connections, g.isTrigger c conn.toNode = false) {call call' : Call}
    (hcall : call ∈ s.calls.reverse) (hcall' : call' ∈ s.calls.reverse)
    (hpush : call.isPush = true) (hpush' : call'.isPush = true)
    (hid : call'.node.id = call.node.id) : call' = call := by
  -- Both are among the pushes of one node, and there is at most one of these.
  have honce := h.pushed_atMostOnce hplain call.node.id
  rw [List.countP_eq_length_filter] at honce
  have hmem : call ∈ s.calls.reverse.filter fun x => x.isPush && x.node.id = call.node.id :=
    List.mem_filter.2 ⟨hcall, by simp [hpush]⟩
  have hmem' : call' ∈ s.calls.reverse.filter fun x => x.isPush && x.node.id = call.node.id :=
    List.mem_filter.2 ⟨hcall', by simp [hpush', hid]⟩
  generalize s.calls.reverse.filter (fun x => x.isPush && x.node.id = call.node.id) = pushes
    at honce hmem hmem'
  cases pushes with
  | nil => cases hmem
  | cons only rest =>
    obtain rfl : rest = [] := List.eq_nil_of_length_eq_zero (by simpa using honce)
    exact (List.mem_singleton.1 hmem').trans (List.mem_singleton.1 hmem).symm

/-- Behind a push stand the pushes that led to it, one at every level above it, and all of them are
pushes of different nodes. -/
theorem exists_chain (h : Over g c config s)
    (hplain : ∀ conn ∈ g.connections, g.isTrigger c conn.toNode = false) {call : Call} {depth : Nat}
    (hcall : call ∈ s.calls.reverse) (hcause : call.cause = .pushed depth) :
    ∃ ids : List NodeId, ids.Nodup ∧ ids.length = depth + 1 ∧
      ∀ id ∈ ids, ∃ link ∈ s.calls.reverse, ∃ level ≤ depth,
        link.cause = .pushed level ∧ link.node.id = id := by
  induction depth generalizing call with
  | zero =>
    refine ⟨[call.node.id], List.nodup_singleton _, rfl, ?_⟩
    intro id hid
    exact ⟨call, hcall, 0, Nat.le_refl 0, hcause, (List.mem_singleton.1 hid).symm⟩
  | succ depth ih =>
    rcases h.exists_source hcall hcause with ⟨source, hmem, hsource, -⟩
    rcases ih hmem hsource with ⟨ids, hnodup, hlength, hlinks⟩
    refine ⟨call.node.id :: ids, List.nodup_cons.2 ⟨?_, hnodup⟩, by simp [hlength], ?_⟩
    · -- A push of the same node further up would be this push, which is deeper than that.
      intro hid
      rcases hlinks _ hid with ⟨link, hlink, level, hlevel, hlinkCause, hlinkId⟩
      obtain rfl : link = call :=
        h.push_unique hplain hcall hlink (Call.isPush_iff.2 ⟨_, hcause⟩)
          (Call.isPush_iff.2 ⟨_, hlinkCause⟩) hlinkId
      obtain rfl : level = depth + 1 := Cause.pushed.inj (hlinkCause.symm.trans hcause)
      exact Nat.not_succ_le_self depth hlevel
    · intro id hid
      rcases List.mem_cons.1 hid with rfl | hid
      · exact ⟨call, hcall, depth + 1, Nat.le_refl _, hcause, rfl⟩
      · rcases hlinks id hid with ⟨link, hlink, level, hlevel, hrest⟩
        exact ⟨link, hlink, level, Nat.le_succ_of_le hlevel, hrest⟩

/-- A push is less deep than there are ids of nodes. -/
theorem depth_lt_card (h : Over g c config s)
    (hplain : ∀ conn ∈ g.connections, g.isTrigger c conn.toNode = false) {call : Call} {depth : Nat}
    (hcall : call ∈ s.calls.reverse) (hcause : call.cause = .pushed depth) :
    depth < (g.nodes.map (·.id)).toFinset.card := by
  rcases h.exists_chain hplain hcall hcause with ⟨ids, hnodup, hlength, hlinks⟩
  have hsub : ids.toFinset ⊆ (g.nodes.map (·.id)).toFinset := by
    intro id hid
    rcases hlinks id (List.mem_toFinset.1 hid) with ⟨link, hlink, -, -, -, rfl⟩
    exact List.mem_toFinset.2 (List.mem_map.2 ⟨link.node, Graph.mem_of_node? (h.known hlink).1, rfl⟩)
  calc depth < ids.length := by omega
    _ = ids.toFinset.card := (List.toFinset_card_of_nodup hnodup).symm
    _ ≤ (g.nodes.map (·.id)).toFinset.card := Finset.card_le_card hsub

end Pass.Over

/-! ## Walks above the limit -/

def Plan.deeper (p : Plan σ) (more : Nat) : Plan σ :=
  { p with config := { p.config with maxDepth := p.config.maxDepth + more } }

/-- A run of a known kind may tell the note. -/
def Catalogue.Tells (c : Catalogue σ) (n : Note) : Prop :=
  ∃ kind d, c.get? kind = some d ∧ ∃ a, n ∈ (d.run a).notes

/-- The event is no push below the limit. -/
def Event.Above (limit : Nat) : Event → Prop
  | .called call => ∀ depth, call.cause = .pushed depth → depth < limit
  | _ => True

/-- The event does not say that a push was cut off, unless the kinds themselves say such things. -/
def Event.Uncut (c : Catalogue σ) : Event → Prop
  | .noted (.depthLimit limit id target) => c.Tells (.depthLimit limit id target)
  | _ => True

namespace Pass

variable {p : Plan σ} {s : Pass σ} {room depth : Nat} {node : Node} {inputs : Inputs}
  {d : Definition σ} {outputs : Outputs} {conn : Connection}

theorem Clean.record {good : Event → Prop} (h : Clean good s) {e : Event} (he : good e) :
    Clean good (s.record e) :=
  List.forall_mem_cons.2 ⟨he, h⟩

/-! ## Only following cuts off -/

/-- A run tells of no push that was cut off, unless its kind does. -/
theorem uncut_call (hs : Clean (Event.Uncut p.catalogue) s) (hd : p.catalogue.get? node.kind = some d)
    (cause : Cause) (inputs : Inputs) :
    Clean (Event.Uncut p.catalogue) (s.call d node cause inputs).2 := by
  intro e he
  rw [call_events, List.mem_cons, List.mem_append, List.mem_reverse, List.mem_map] at he
  rcases he with rfl | ⟨n, hn, rfl⟩ | he
  · trivial
  · -- Whatever the run tells, it is a run of a known kind that tells it.
    cases n with
    | depthLimit => exact ⟨node.kind, d, hd, _, hn⟩
    | _ => trivial
  · exact hs e he

/-- Nor does a pull, which is at most a run. -/
theorem uncut_pull (hs : Clean (Event.Uncut p.catalogue) s) (hd : p.catalogue.get? node.kind = some d) :
    Clean (Event.Uncut p.catalogue) (pull p d node s).2 :=
  pull_invariant hs (uncut_call hs hd .pulled {}) fun _ _ ht => ht

theorem uncut_deliver {state : Inputs × Pass σ} (hs : Clean (Event.Uncut p.catalogue) state.2)
    (conn : Connection) : Clean (Event.Uncut p.catalogue) (deliver p state conn).2 := by
  rcases state with ⟨inputs, s⟩
  unfold deliver
  cases hsource : p.wiring.node? conn.fromNode with
  | none => exact hs
  | some source =>
    cases hd : p.catalogue.get? source.kind with
    | none => simpa only [hd] using hs
    | some d =>
      cases hport : d.isControlOutput conn.fromPort with
      | true => simpa only [hd, hport, if_true] using hs
      | false =>
        have hresolved := (uncut_pull hs hd).record (e := .resolved conn (pull p d source s).1) trivial
        simp only [hd, hport, Bool.false_eq_true, if_false]
        split
        · exact hresolved
        · exact hresolved.record trivial

theorem uncut_assemble (hs : Clean (Event.Uncut p.catalogue) s) (target : Node) :
    Clean (Event.Uncut p.catalogue) (assemble p target s).2 := by
  unfold assemble
  refine List.foldlRecOn (motive := fun (state : Inputs × Pass σ) =>
    Clean (Event.Uncut p.catalogue) state.2) _ _ hs ?_
  intro state hstate conn _
  exact uncut_deliver hstate conn

/-! ## Larger limits -/

/-- Pushes with so much room go the same way under a larger limit, as long as they stay above this one,
and nothing is cut off in them. -/
def Unhindered (p : Plan σ) (more room depth : Nat) : Prop :=
  ∀ node inputs s, Clean (Event.Uncut p.catalogue) s →
    Clean (Event.Above p.config.maxDepth) (push p room depth node inputs s) →
    push (p.deeper more) (room + more) depth node inputs s = push p room depth node inputs s ∧
      Clean (Event.Uncut p.catalogue) (push p room depth node inputs s)

/-- If what stands behind it is pushed unhindered, a connection is followed so. -/
theorem follow_deeper {more : Nat} (hpush : Unhindered p more room (depth + 1))
    (hs : Clean (Event.Uncut p.catalogue) s)
    (habove : Clean (Event.Above p.config.maxDepth)
      (follow p (descent p (room + 1) depth) depth d node outputs s conn)) :
    follow (p.deeper more) (descent (p.deeper more) (room + 1 + more) depth) depth d node outputs s
        conn = follow p (descent p (room + 1) depth) depth d node outputs s conn ∧
      Clean (Event.Uncut p.catalogue)
        (follow p (descent p (room + 1) depth) depth d node outputs s conn) := by
  by_cases hopen : isOpen d outputs conn.fromPort = true
  · cases htarget : p.wiring.node? conn.toNode with
    | none =>
      have htarget' : (p.deeper more).wiring.node? conn.toNode = none := htarget
      simp only [follow, hopen, if_true, htarget, htarget']
      exact ⟨trivial, hs.record trivial⟩
    | some target =>
      have htarget' : (p.deeper more).wiring.node? conn.toNode = some target := htarget
      -- There is room in both walks, and what the target pulls does not depend on the limit.
      rw [Nat.succ_add, follow_of_open hopen htarget', follow_of_open hopen htarget]
      rw [follow_of_open hopen htarget] at habove
      have hfollowed : Clean (Event.Uncut p.catalogue) (s.record (.followed conn depth)) :=
        hs.record trivial
      exact hpush target _ _ (uncut_assemble hfollowed target) habove
  · simp only [follow, hopen, Bool.false_eq_true, if_false]
    refine ⟨trivial, ?_⟩
    split
    · exact hs
    · exact hs.record trivial

/-- Pushes are not hindered by a limit that is never reached. The induction is on the room below it. -/
theorem push_deeper (more : Nat) (hroom : depth + room = p.config.maxDepth) :
    Unhindered p more room depth := by
  -- The induction is on the room below the node: a node that is entered is above the limit, so there is
  -- room for what stands behind it.
  refine level_induction (P := fun room depth => depth + room = p.config.maxDepth →
    Unhindered p more room depth) ?_ room depth hroom
  intro room depth hless hroom node inputs s hs habove
  cases hd : p.catalogue.get? node.kind with
  | none =>
    have hd' : (p.deeper more).catalogue.get? node.kind = none := hd
    rw [push_of_unknown hd, push_of_unknown hd']
    exact ⟨rfl, hs.record trivial⟩
  | some d =>
    have hd' : (p.deeper more).catalogue.get? node.kind = some d := hd
    by_cases hmay : MayEnter d node s
    · have hentered : Clean (Event.Uncut p.catalogue) (s.enter d node depth inputs).2 :=
        uncut_call (s := { s with executed := node.id :: s.executed }) hs hd (.pushed depth) inputs
      have hsteps : Steps p [] (s.enter d node depth inputs).2 (push p room depth node inputs s) :=
        steps_push_of_mayEnter hroom s hd hmay
      -- The run of the node is still among the events, so it is above the limit too.
      have hdepth : depth < p.config.maxDepth :=
        habove (.called ⟨node, .pushed depth, inputs, (s.enter d node depth inputs).1⟩)
          (hsteps.events_subset List.mem_cons_self) depth rfl
      obtain ⟨less, rfl⟩ : ∃ less, room = less + 1 := ⟨room - 1, by omega⟩
      rw [push_of_mayEnter hd hmay] at habove ⊢
      rw [push_of_mayEnter hd' hmay]
      cases houtputs : (s.enter d node depth inputs).1 with
      | none => exact ⟨rfl, hentered⟩
      | some outputs =>
        simp only [houtputs] at habove
        unfold followAll at habove ⊢
        have hproduced : Clean (Event.Uncut p.catalogue) ((s.enter d node depth inputs).2.note
            (.produced node.id node.kind outputs.values.size)) := hentered.record trivial
        -- Both walks follow the same connections from the same state.
        refine List.foldl_rel (l := p.wiring.connectionsFrom node.id)
          (r := fun t s => Clean (Event.Above p.config.maxDepth) s →
            t = s ∧ Clean (Event.Uncut p.catalogue) s) (fun _ => ⟨rfl, hproduced⟩) ?_ habove
        intro conn _ t s hrel habove
        obtain ⟨rfl, hs⟩ := hrel (habove.of_subset (events_subset_follow hroom s conn))
        exact follow_deeper (hless less rfl (by omega)) hs habove
    · rw [push_of_executed hd hmay, push_of_executed hd' hmay]
      exact ⟨rfl, hs⟩

/-- Nor are the starts. -/
theorem start_deeper (more : Nat) {id : NodeId} (hs : Clean (Event.Uncut p.catalogue) s)
    (habove : Clean (Event.Above p.config.maxDepth) (start p s id)) :
    start (p.deeper more) s id = start p s id ∧
      Clean (Event.Uncut p.catalogue) (start p s id) := by
  unfold start at habove ⊢
  cases hnode : p.wiring.node? id with
  | none =>
    have hnode' : (p.deeper more).wiring.node? id = none := hnode
    simp only [hnode']
    exact ⟨trivial, hs⟩
  | some node =>
    have hnode' : (p.deeper more).wiring.node? id = some node := hnode
    simp only [hnode] at habove
    simp only [hnode']
    exact push_deeper more (Nat.zero_add _) node {} s hs habove

end Pass

/-- A pass that stays above the limit is the same pass under a larger limit, and nothing is cut off in
it. -/
theorem Plan.pass_deeper (p : Plan σ) (more : Nat) (starts : List NodeId) (world : World σ)
    (memories : Table NodeId Slot)
    (habove : Pass.Clean (Event.Above p.config.maxDepth) (p.pass starts world memories)) :
    (p.deeper more).pass starts world memories = p.pass starts world memories ∧
      Pass.Clean (Event.Uncut p.catalogue) (p.pass starts world memories) := by
  unfold pass at habove ⊢
  refine List.foldl_rel (r := fun s t => Pass.Clean (Event.Above p.config.maxDepth) t →
    s = t ∧ Pass.Clean (Event.Uncut p.catalogue) t) ?_ ?_ habove
  · intro _
    exact ⟨rfl, fun e he => absurd he List.not_mem_nil⟩
  · intro id hid s t hrel habove
    have hsteps : Pass.Steps p [id] t (Pass.start p t id) := Pass.steps_start List.mem_cons_self
    obtain ⟨rfl, hs⟩ := hrel (habove.of_subset hsteps.events_subset)
    exact Pass.start_deeper more hs habove

/-! ## Limits with room for every node -/

/-- Two depth limits are as good as each other for a graph, and neither is ever reached.

- Passes from the same world and memories are the same, with all that happens in them.
- Every push is less deep than both limits, so there is room behind it.
- No pass says that a push was cut off, unless a kind itself says such a thing. -/
structure Executor.Roomy (g : Graph) (c : Catalogue σ) (policy : PullPolicy) (limit limit' : Nat) :
    Prop where
  same : ∀ (memories : Table NodeId Slot) (frame : Nat) (world : World σ)
    (hosts : List (World σ → World σ)),
    SameFrames (fun events => events)
      (frames { (ofGraph g c ⟨policy, limit⟩).1 with memories, frame } world hosts)
      (frames { (ofGraph g c ⟨policy, limit'⟩).1 with memories, frame } world hosts)
  above : ∀ (memories : Table NodeId Slot) (frame : Nat) (world : World σ)
    (hosts : List (World σ → World σ)),
    ∀ events ∈ (frames { (ofGraph g c ⟨policy, limit⟩).1 with memories, frame } world hosts).2.2,
      ∀ call ∈ Event.calls events, ∀ depth, call.cause = .pushed depth →
        depth + 1 ≤ limit ∧ depth + 1 ≤ limit'
  uncut : ∀ (memories : Table NodeId Slot) (frame : Nat) (world : World σ)
    (hosts : List (World σ → World σ)),
    ∀ events ∈ (frames { (ofGraph g c ⟨policy, limit⟩).1 with memories, frame } world hosts).2.2,
      ∀ reached id target, .noted (.depthLimit reached id target) ∈ events →
        c.Tells (.depthLimit reached id target)

namespace Executor

variable {g : Graph} {c : Catalogue σ}

/-- With room for every node, a pass stays above the limit. -/
theorem above_passEnd (hplain : ∀ conn ∈ g.connections, g.isTrigger c conn.toNode = false)
    (config : ExecutorConfig) {limit : Nat} (hroom : (g.nodes.map (·.id)).toFinset.card ≤ limit)
    (world : World σ) (memories : Table NodeId Slot) :
    Pass.Clean (Event.Above limit) (passEnd g c config world memories) := by
  intro e he
  cases e with
  | called call =>
    intro depth hcause
    have hcall : call ∈ (passEnd g c config world memories).calls.reverse :=
      List.mem_reverse.2 (List.mem_filterMap.2 ⟨_, he, rfl⟩)
    exact Nat.lt_of_lt_of_le
      ((Pass.over_passEnd g c config world memories).depth_lt_card hplain hcall hcause) hroom
  | _ => trivial

/-- Of two limits that leave room for all ids, the larger one makes the same passes as the smaller one.
-/
theorem same_of_le (hplain : ∀ conn ∈ g.connections, g.isTrigger c conn.toNode = false)
    (policy : PullPolicy) {limit limit' : Nat}
    (hroom : (g.nodes.map (·.id)).toFinset.card ≤ limit) (hle : limit ≤ limit')
    (memories : Table NodeId Slot) (frame : Nat) (world : World σ)
    (hosts : List (World σ → World σ)) :
    SameFrames (fun events => events)
      (frames { (ofGraph g c ⟨policy, limit⟩).1 with memories, frame } world hosts)
      (frames { (ofGraph g c ⟨policy, limit'⟩).1 with memories, frame } world hosts) := by
  obtain ⟨more, rfl⟩ : ∃ more, limit' = limit + more := ⟨limit' - limit, by omega⟩
  refine frames_agree (fun _ => True) ?_ hosts _ _ world ⟨rfl, rfl⟩ ⟨rfl, rfl⟩ rfl rfl
    (fun _ _ _ _ => trivial)
  intro world memories _
  have hpass : passEnd g c ⟨policy, limit + more⟩ world memories =
      passEnd g c ⟨policy, limit⟩ world memories :=
    ((g.plan c ⟨policy, limit⟩).pass_deeper more _ world memories
      (above_passEnd hplain _ hroom world memories)).1
  exact ⟨congrArg Pass.world hpass, congrArg Pass.memories hpass,
    congrArg (fun s : Pass σ => s.events.reverse) hpass⟩

/-- So any two of them are as good as each other. -/
theorem roomy_of_plain (hplain : ∀ conn ∈ g.connections, g.isTrigger c conn.toNode = false)
    (policy : PullPolicy) {limit limit' : Nat}
    (hroom : (g.nodes.map (·.id)).toFinset.card ≤ limit)
    (hroom' : (g.nodes.map (·.id)).toFinset.card ≤ limit') : Roomy g c policy limit limit' := by
  constructor
  case same =>
    intro memories frame world hosts
    -- It does not matter which limit is the larger one: there is room under both.
    rcases Nat.le_total limit limit' with hle | hle
    · exact same_of_le hplain policy hroom hle memories frame world hosts
    · have hsame := same_of_le hplain policy hroom' hle memories frame world hosts
      exact ⟨hsame.world.symm, hsame.memories.symm, hsame.frame.symm, hsame.events.symm⟩
  case above =>
    intro memories frame world hosts
    refine frames_forall ?_ hosts _ world ⟨rfl, rfl⟩
    intro world memories call hcall depth hcause
    rw [Pass.calls_reverse] at hcall
    have hdepth := (Pass.over_passEnd g c ⟨policy, limit⟩ world memories).depth_lt_card hplain
      hcall hcause
    exact ⟨Nat.le_trans hdepth hroom, Nat.le_trans hdepth hroom'⟩
  case uncut =>
    intro memories frame world hosts
    refine frames_forall ?_ hosts _ world ⟨rfl, rfl⟩
    intro world memories reached id target hnote
    exact ((g.plan c ⟨policy, limit⟩).pass_deeper 0 _ world memories
      (above_passEnd hplain _ hroom world memories)).2 _ (List.mem_reverse.1 hnote)

/-- In a graph without connections into frame triggers all depth limits with room for every node are
the same limit.  Over the standard kinds this holds of every graph without issues. -/
theorem roomy (g : Graph) (policy : PullPolicy) {limit limit' : Nat}
    (hroom : (g.nodes.map (·.id)).toFinset.card ≤ limit)
    (hroom' : (g.nodes.map (·.id)).toFinset.card ≤ limit') :
    (∀ c : Catalogue σ, (∀ conn ∈ g.connections, g.isTrigger c conn.toNode = false) →
      Roomy g c policy limit limit') ∧
    (∀ [SceneHost σ], g.issues (Catalogue.standard : Catalogue σ) = [] →
      Roomy g (Catalogue.standard : Catalogue σ) policy limit limit') := by
  refine ⟨fun c hplain => roomy_of_plain hplain policy hroom hroom', ?_⟩
  intro _ hissues
  exact roomy_of_plain (fun conn hconn => Graph.isTrigger_eq_false_of_issues hissues hconn) policy
    hroom hroom'

/-- Three levels of pushes are room enough for the circle, and as good as the usual limit. -/
theorem roomy_circle :
    Graph.circle.issues (Catalogue.standard : Catalogue HeadlessScene) = [] ∧
    (Graph.circle.nodes.map (·.id)).toFinset.card ≤ 3 ∧
    Roomy Graph.circle (Catalogue.standard : Catalogue HeadlessScene) .reinvoke 3
      ({} : ExecutorConfig).maxDepth := by
  have hissues : Graph.circle.issues (Catalogue.standard : Catalogue HeadlessScene) = [] := by decide
  have hroom : (Graph.circle.nodes.map (·.id)).toFinset.card ≤ 3 := by decide
  exact ⟨hissues, hroom, (roomy Graph.circle .reinvoke hroom (by decide)).2 hissues⟩

end Executor

end GraphScript

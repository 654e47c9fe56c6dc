import GraphScript.Proofs.PassPairs
import Mathlib.Data.List.Forall2

/-!
# MirroredPasses — the same walk through other nodes

Nodes carry data that only the editor looks at: where they are drawn, and what their labels say.  The
order of their properties and the ids of connections are of that sort too.  A plan is mirrored by another
one that has nodes with the same ids, kinds and properties, and connections with the same ends, in the
same order at every node.

- `Node.Matches`, `Connection.Matches` — nothing but the data of the editor is different;
- `Definition.Blind` — runs of matching nodes end alike;
- `Pass.Mirrors` — two passes have come equally far, with matching runs;
- `Plan.Mirrors.pass` — a plan and its mirror image make mirrored passes, if all kinds are blind.
-/

namespace GraphScript

variable {σ : Type}

/-! ## Data of the editor -/

structure Node.Matches (n m : Node) : Prop where
  id : m.id = n.id
  kind : m.kind = n.kind
  property : ∀ key, m.property? key = n.property? key

structure Connection.Matches (conn conn' : Connection) : Prop where
  fromNode : conn'.fromNode = conn.fromNode
  fromPort : conn'.fromPort = conn.fromPort
  toNode : conn'.toNode = conn.toNode
  toPort : conn'.toPort = conn.toPort

/-- The runs are runs of matching nodes for the same cause, with the same inputs and outputs. -/
structure Call.Matches (call call' : Call) : Prop where
  node : call.node.Matches call'.node
  cause : call'.cause = call.cause
  inputs : call'.inputs = call.inputs
  outputs : call'.outputs = call.outputs

/-- Runs of matching nodes end alike, and tell the same. -/
def Definition.Blind (d : Definition σ) : Prop :=
  ∀ (world : World σ) (inputs : Inputs) (memory : Slot) (n m : Node), n.Matches m →
    d.run ⟨world, inputs, m, memory⟩ = d.run ⟨world, inputs, n, memory⟩

/-- The second plan is the first one but for data of the editor.  Of connections only those count that
leave or enter a node of the plan. -/
structure Plan.Mirrors (p q : Plan σ) : Prop where
  node : ∀ id, Option.Rel Node.Matches (p.wiring.node? id) (q.wiring.node? id)
  outgoing : ∀ id n, p.wiring.node? id = some n →
    List.Forall₂ Connection.Matches (p.wiring.connectionsFrom n.id) (q.wiring.connectionsFrom n.id)
  incoming : ∀ id n, p.wiring.node? id = some n →
    List.Forall₂ Connection.Matches (p.wiring.connectionsTo n.id) (q.wiring.connectionsTo n.id)
  catalogue : q.catalogue = p.catalogue
  config : q.config = p.config
  blind : ∀ kind d, p.catalogue.get? kind = some d → d.Blind

/-- What is found under an id in both plans. -/
theorem Plan.Mirrors.node_cases {p q : Plan σ} (h : p.Mirrors q) {id id' : NodeId} (hid : id' = id) :
    (p.wiring.node? id = none ∧ q.wiring.node? id' = none) ∨
      ∃ n m, p.wiring.node? id = some n ∧ q.wiring.node? id' = some m ∧ n.Matches m := by
  subst hid
  have hrel := h.node id'
  generalize hp : p.wiring.node? id' = found at hrel
  generalize hq : q.wiring.node? id' = found' at hrel
  cases hrel with
  | none => exact Or.inl ⟨rfl, rfl⟩
  | some hmatch => exact Or.inr ⟨_, _, rfl, rfl, hmatch⟩

namespace Pass

variable {p q : Plan σ} {s t : Pass σ} {room depth : Nat} {node node' : Node} {inputs : Inputs}
  {d : Definition σ} {outputs : Outputs} {conn conn' : Connection}

/-! ## Mirrored states -/

/-- The passes have come equally far, and the runs of one match those of the other. -/
structure Mirrors (s t : Pass σ) : Prop extends Even s t where
  calls : List.Forall₂ Call.Matches s.calls t.calls

namespace Mirrors

theorem record (h : Mirrors s t) {e e' : Event} (he : e.isOwn = true) (he' : e'.isOwn = true) :
    Mirrors (s.record e) (t.record e') := by
  refine ⟨⟨h.world, h.memories, h.executed, h.pulled⟩, ?_⟩
  simpa only [calls_record he, calls_record he'] using h.calls

/-- Runs of matching nodes end alike, and leave mirrored passes behind. -/
theorem call (h : Mirrors s t) (hblind : d.Blind) (hnode : node.Matches node') (cause : Cause)
    (inputs : Inputs) :
    (t.call d node' cause inputs).1 = (s.call d node cause inputs).1 ∧
      Mirrors (s.call d node cause inputs).2 (t.call d node' cause inputs).2 := by
  -- The slot is found under the id, and the kind does not see what else is different.
  have houtcome : t.outcome d node' inputs = s.outcome d node inputs := by
    rw [h.toEven.outcome, outcome, outcome, hnode.id]
    exact hblind _ _ _ _ _ hnode
  have houtputs := congrArg Outcome.outputs houtcome
  refine ⟨houtputs, h.toEven.call hnode.id houtcome cause, ?_⟩
  rw [call_calls, call_calls]
  exact .cons ⟨hnode, rfl, rfl, houtputs⟩ h.calls

theorem enter (h : Mirrors s t) (hblind : d.Blind) (hnode : node.Matches node') (depth : Nat)
    (inputs : Inputs) :
    (t.enter d node' depth inputs).1 = (s.enter d node depth inputs).1 ∧
      Mirrors (s.enter d node depth inputs).2 (t.enter d node' depth inputs).2 := by
  have hmarked : Mirrors { s with executed := node.id :: s.executed }
      { t with executed := node'.id :: t.executed } :=
    ⟨hnode.id ▸ h.toEven.mark node.id, h.calls⟩
  exact hmarked.call hblind hnode (.pushed depth) inputs

/-! ## Mirrored pulls -/

-- The runs of a pull are runs of two nodes, so `pull_rel` does not apply here.
/-- Pulls too, under either policy. -/
theorem pull (h : Mirrors s t) (hplan : p.Mirrors q) (hblind : d.Blind) (hnode : node.Matches node') :
    (pull q d node' t).1 = (pull p d node s).1 ∧
      Mirrors (pull p d node s).2 (pull q d node' t).2 := by
  have hcall := h.call hblind hnode .pulled {}
  unfold Pass.pull
  rw [hplan.config, h.pulled, hnode.id]
  split
  · split
    · exact ⟨rfl, h⟩
    · refine ⟨hcall.1, ?_⟩
      simp only [hcall.1]
      exact ⟨hcall.2.toEven.keep node.id _, hcall.2.calls⟩
  · exact hcall

theorem deliver (h : Mirrors s t) (hplan : p.Mirrors q) (hconn : conn.Matches conn') :
    (deliver q (inputs, t) conn').1 = (deliver p (inputs, s) conn).1 ∧
      Mirrors (deliver p (inputs, s) conn).2 (deliver q (inputs, t) conn').2 := by
  rcases hplan.node_cases hconn.fromNode with ⟨hsource, hsource'⟩ | ⟨n, m, hsource, hsource', hmatch⟩
  · -- Both connections lack their source.
    simp only [Pass.deliver, hsource, hsource']
    exact ⟨trivial, h⟩
  · have hkind : q.catalogue.get? m.kind = p.catalogue.get? n.kind := by
      rw [hplan.catalogue, hmatch.kind]
    cases hd : p.catalogue.get? n.kind with
    | none =>
      simp only [Pass.deliver, hsource, hsource', hkind, hd]
      exact ⟨trivial, h⟩
    | some d =>
      cases hport : d.isControlOutput conn.fromPort with
      | true =>
        simp only [Pass.deliver, hsource, hsource', hkind, hd, hconn.fromPort, hport, if_true]
        exact ⟨trivial, h⟩
      | false =>
        rcases h.pull hplan (hplan.blind _ d hd) hmatch with ⟨houtputs, hpulled⟩
        -- Both sources leave the same outputs, for their kind does not look at what tells them apart.
        simp only [Pass.deliver, hsource, hsource', hkind, hd, hconn.fromPort, hconn.toPort, hport,
          Bool.false_eq_true, if_false, houtputs]
        split
        · exact ⟨rfl, hpulled.record rfl rfl⟩
        · exact ⟨rfl, (hpulled.record rfl rfl).record rfl rfl⟩

theorem assemble (h : Mirrors s t) (hplan : p.Mirrors q) {id : NodeId}
    (hfound : p.wiring.node? id = some node) (hnode : node.Matches node') :
    (assemble q node' t).1 = (assemble p node s).1 ∧
      Mirrors (assemble p node s).2 (assemble q node' t).2 := by
  unfold Pass.assemble
  rw [hnode.id]
  refine List.rel_foldl (P := fun a b : Inputs × Pass σ => b.1 = a.1 ∧ Mirrors a.2 b.2) ?_ ?_
    (hplan.incoming id node hfound)
  · rintro ⟨inputs, s⟩ ⟨inputs', t⟩ ⟨hinputs, hst⟩ conn conn' hconn
    obtain rfl : inputs' = inputs := hinputs
    exact hst.deliver hplan hconn
  · exact ⟨rfl, h⟩

/-! ## Mirrored pushes -/

/-- If targets are pushed in mirrored ways, matching connections are followed so. -/
theorem follow (h : Mirrors s t) (hplan : p.Mirrors q) (hconn : conn.Matches conn')
    (hpush : ∀ less n m inputs s t, room = less + 1 → p.wiring.node? conn.toNode = some n →
      n.Matches m → Mirrors s t →
      Mirrors (push p less (depth + 1) n inputs s) (push q less (depth + 1) m inputs t)) :
    Mirrors (follow p (descent p room depth) depth d node outputs s conn)
      (follow q (descent q room depth) depth d node' outputs t conn') := by
  by_cases hopen : isOpen d outputs conn.fromPort = true
  · have hopen' : isOpen d outputs conn'.fromPort = true := by rw [hconn.fromPort, hopen]
    rcases hplan.node_cases hconn.toNode with ⟨htarget, htarget'⟩ | ⟨n, m, htarget, htarget', hmatch⟩
    · -- What is noted mentions the ids of the connections, and is no run.
      simp only [Pass.follow, hopen, hopen', if_true, htarget, htarget']
      exact h.record rfl rfl
    · cases room with
      | zero =>
        -- The limits are the same.
        simp only [Pass.follow, hopen, hopen', if_true, htarget, htarget', descent]
        exact h.record rfl rfl
      | succ less =>
        rw [follow_of_open hopen htarget, follow_of_open hopen' htarget']
        have hfollowed : Mirrors (s.record (.followed conn depth)) (t.record (.followed conn' depth)) :=
          h.record rfl rfl
        rcases hfollowed.assemble hplan htarget hmatch with ⟨hinputs, hassembled⟩
        rw [hinputs]
        exact hpush less n m _ _ _ rfl htarget hmatch hassembled
  · simp only [Pass.follow, hopen, hconn.fromPort, Bool.false_eq_true, if_false]
    split
    · exact h
    · exact h.record rfl rfl

/-- Pushes mirror each other, by induction on the room below the depth limit. -/
theorem push (h : Mirrors s t) (hplan : p.Mirrors q) {id : NodeId}
    (hfound : p.wiring.node? id = some node) (hnode : node.Matches node') (room depth : Nat)
    (inputs : Inputs) :
    Mirrors (push p room depth node inputs s) (push q room depth node' inputs t) := by
  -- The induction is on the room below both nodes, which is the same.
  refine level_induction (P := fun room depth => ∀ id n m inputs s t,
    p.wiring.node? id = some n → n.Matches m → Mirrors s t →
      Mirrors (Pass.push p room depth n inputs s) (Pass.push q room depth m inputs t)) ?_
    room depth id node node' inputs s t hfound hnode h
  intro room depth hless id n m inputs s t hfound hmatch h
  have hkind : q.catalogue.get? m.kind = p.catalogue.get? n.kind := by
    rw [hplan.catalogue, hmatch.kind]
  cases hd : p.catalogue.get? n.kind with
  | none =>
    rw [push_of_unknown hd, push_of_unknown (hkind.trans hd)]
    exact h.record rfl rfl
  | some d =>
    -- Marks are made by id, so one node may enter where the other one may.
    have hiff : MayEnter d m t ↔ MayEnter d n s := by
      rw [MayEnter, MayEnter, h.executed, hmatch.id]
    by_cases hmay : MayEnter d n s
    · rcases h.enter (hplan.blind _ d hd) hmatch depth inputs with ⟨houtputs, hentered⟩
      rw [push_of_mayEnter hd hmay, push_of_mayEnter (hkind.trans hd) (hiff.2 hmay), houtputs]
      cases (s.enter d n depth inputs).1 with
      | none => exact hentered
      | some outputs =>
        unfold followAll
        rw [hmatch.id]
        refine List.rel_foldl (P := Mirrors) ?_ (hentered.record rfl rfl) (hplan.outgoing id n hfound)
        intro s t hst conn conn' hconn
        exact hst.follow hplan hconn fun less target target' inputs s t hroom htarget =>
          hless less hroom _ target target' inputs s t htarget
    · rw [push_of_executed hd hmay, push_of_executed (hkind.trans hd) (hmay ∘ hiff.1)]
      exact h

theorem start (h : Mirrors s t) (hplan : p.Mirrors q) (id : NodeId) :
    Mirrors (start p s id) (start q t id) := by
  unfold Pass.start
  rw [hplan.config]
  rcases hplan.node_cases (rfl : id = id) with ⟨hfound, hfound'⟩ | ⟨n, m, hfound, hfound', hmatch⟩
  · simp only [hfound, hfound']
    exact h
  · simp only [hfound, hfound']
    exact h.push hplan hfound hmatch _ 0 {}

end Mirrors

end Pass

/-- A plan and its mirror image make mirrored passes. -/
theorem Plan.Mirrors.pass {p q : Plan σ} (hplan : p.Mirrors q) (starts : List NodeId)
    (world : World σ) (memories : Table NodeId Slot) :
    Pass.Mirrors (p.pass starts world memories) (q.pass starts world memories) := by
  refine List.foldl_rel (r := Pass.Mirrors) ⟨⟨rfl, rfl, rfl, rfl⟩, .nil⟩ ?_
  intro id _ s t hst
  exact hst.start hplan id

end GraphScript

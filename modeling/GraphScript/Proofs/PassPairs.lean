import GraphScript.Proofs.PassSteps
import Mathlib.Data.List.Basic

/-!
# PassPairs — two passes side by side

Two plans may differ in their connections, in their policy or in kinds that are never looked up, and
still lead the same walk.  To compare their passes it is enough to compare what happens at single
places of the walk:

- `Pass.Tells` — what a pass tells by itself, and where it does so;
- `Pass.Fed` — inputs hold what resolved connections delivered, and nothing else;
- `Pass.Even` — two passes are in the same state, whatever has happened in them;
- `Pass.Pairing` — a relation between the states of two walks that every place of the walk preserves,
  as long as the walks stay inside some part of the plan;
- `Pass.Pairing.pass` — such a relation holds at the end of both passes;
- `Plan.pass_of_tells` — the same for a single pass, with everything that is known where it tells.

The second plan may lack connections of the first.  For these the first pass answers alone, and may
rely on what it is known to tell in the end.
-/

namespace GraphScript

namespace Pass

variable {σ : Type}

/-! ## What a pass tells by itself -/

/-- The events of a pass that no run tells, with what is known where they are told. -/
inductive Tells (p : Plan σ) : Event → Prop where
  | kindMissing {id : NodeId} {node : Node} (hnode : p.wiring.node? id = some node)
      (hkind : p.catalogue.get? node.kind = none) :
      Tells p (.noted (.kindMissing node.kind node.id))
  | produced (id : NodeId) (kind : KindName) (count : Nat) :
      Tells p (.noted (.produced id kind count))
  | nothingToPush (id : NodeId) (port : PortId) (conn : ConnectionId) :
      Tells p (.noted (.nothingToPush id port conn))
  | nothingToPull (id : NodeId) (port : PortId) : Tells p (.noted (.nothingToPull id port))
  | targetMissing {id : NodeId} {conn : Connection} (hconn : conn ∈ p.wiring.connectionsFrom id)
      (htarget : p.wiring.node? conn.toNode = none) :
      Tells p (.noted (.targetMissing conn.id conn.toNode))
  | depthLimit (limit : Nat) (id target : NodeId) :
      Tells p (.noted (.depthLimit limit id target))
  | resolved {target : NodeId} {conn : Connection} {source : Node} {d : Definition σ}
      (hconn : conn ∈ p.wiring.connectionsTo target)
      (hsource : p.wiring.node? conn.fromNode = some source)
      (hd : p.catalogue.get? source.kind = some d)
      (hport : d.isControlOutput conn.fromPort = false) (outputs : Option Outputs) :
      Tells p (.resolved conn outputs)
  | followed {id : NodeId} {node target : Node} {d : Definition σ} {conn : Connection}
      (hnode : p.wiring.node? id = some node) (hd : p.catalogue.get? node.kind = some d)
      (hconn : conn ∈ p.wiring.connectionsFrom node.id)
      (htarget : p.wiring.node? conn.toNode = some target) (depth : Nat) :
      Tells p (.followed conn depth)

/-- Such events are no runs. -/
theorem Tells.isOwn {p : Plan σ} {e : Event} (h : Tells p e) : e.isOwn = true := by
  cases h with
  | _ => rfl

/-! ## Events are never forgotten -/

variable {p q : Plan σ} {starts : List NodeId} {s t : Pass σ}

theorem events_subset_record (s : Pass σ) (e : Event) : s.events ⊆ (s.record e).events :=
  List.subset_cons_self e s.events

theorem events_subset_call (s : Pass σ) (d : Definition σ) (node : Node) (cause : Cause)
    (inputs : Inputs) : s.events ⊆ (s.call d node cause inputs).2.events := by
  rw [call_events]
  intro e he
  exact List.mem_cons_of_mem _ (List.mem_append_right _ he)

theorem events_subset_enter (s : Pass σ) (d : Definition σ) (node : Node) (depth : Nat)
    (inputs : Inputs) : s.events ⊆ (s.enter d node depth inputs).2.events :=
  events_subset_call { s with executed := node.id :: s.executed } d node (.pushed depth) inputs

/-- Nothing that was told is taken back. -/
theorem PullSteps.events_subset (h : PullSteps p s t) : s.events ⊆ t.events := by
  induction h with
  | refl => exact List.Subset.refl _
  | tail _ hlast ih =>
    refine List.Subset.trans ih ?_
    cases hlast with
    | told e he => exact events_subset_record _ e
    | kept id outputs => exact List.Subset.refl _
    | pulled => exact events_subset_call _ _ _ _ _

theorem Steps.events_subset (h : Steps p starts s t) : s.events ⊆ t.events := by
  refine h.invariant (I := fun t => s.events ⊆ t.events) ?_ (List.Subset.refl _)
  intro t u hstep ht
  refine List.Subset.trans ht ?_
  cases hstep with
  | pull h => exact PullSteps.events_subset (.single h)
  | pushed => exact events_subset_enter _ _ _ _ _
  | started => exact events_subset_enter _ _ _ _ _

theorem events_subset_push {room depth : Nat} (hroom : depth + room = p.config.maxDepth)
    (node : Node) (inputs : Inputs) (s : Pass σ) :
    s.events ⊆ (push p room depth node inputs s).events := by
  cases hd : p.catalogue.get? node.kind with
  | none =>
    rw [push_of_unknown hd]
    exact events_subset_record s _
  | some d =>
    by_cases hmay : MayEnter d node s
    · have hsteps : Steps p [] (s.enter d node depth inputs).2 (push p room depth node inputs s) :=
        steps_push_of_mayEnter hroom s hd hmay
      exact List.Subset.trans (events_subset_enter s d node depth inputs) hsteps.events_subset
    · rw [push_of_executed hd hmay]
      exact List.Subset.refl _

theorem events_subset_follow {room depth : Nat} (hroom : depth + room = p.config.maxDepth)
    {d : Definition σ} {node : Node} {outputs : Outputs} (s : Pass σ) (conn : Connection) :
    s.events ⊆ (follow p (descent p room depth) depth d node outputs s conn).events := by
  by_cases hpushes : isOpen d outputs conn.fromPort = true ∧ p.wiring.node? conn.toNode ≠ none ∧
      room ≠ 0
  · rcases hpushes with ⟨hopen, hnode, hspace⟩
    rcases Option.ne_none_iff_exists'.1 hnode with ⟨target, htarget⟩
    rcases Nat.exists_eq_succ_of_ne_zero hspace with ⟨less, rfl⟩
    rw [follow_of_open hopen htarget]
    have hpulled : PullSteps p s (assemble p target (s.record (.followed conn depth))).2 :=
      pullSteps_arrive conn depth target
    exact List.Subset.trans hpulled.events_subset (events_subset_push (by omega) target _ _)
  · have hpulled : PullSteps p s (follow p (descent p room depth) depth d node outputs s conn) := by
      refine pullSteps_follow ?_
      intro hopen hnode
      refine Classical.byContradiction fun hspace => ?_
      exact hpushes ⟨hopen, hnode, hspace⟩
    exact hpulled.events_subset

/-! ## Inputs are what connections delivered -/

/-- Every value among the inputs of the node was found at the port from which a connection into the
node leads, when that connection was resolved. -/
def Fed (p : Plan σ) (node : Node) (inputs : Inputs) (s : Pass σ) : Prop :=
  ∀ port value, inputs.get? port = some value → ∃ conn outputs,
    conn ∈ p.wiring.connectionsTo node.id ∧ conn.toPort = port ∧
      .resolved conn (some outputs) ∈ s.events ∧ outputs.get? conn.fromPort = some value

theorem fed_empty (p : Plan σ) (node : Node) (s : Pass σ) : Fed p node {} s := by
  intro port value hvalue
  cases hvalue

theorem Fed.mono {node : Node} {inputs : Inputs} (h : Fed p node inputs s)
    (hsub : s.events ⊆ t.events) : Fed p node inputs t := by
  intro port value hvalue
  rcases h port value hvalue with ⟨conn, outputs, hconn, hport, hresolved, hget⟩
  exact ⟨conn, outputs, hconn, hport, hsub hresolved, hget⟩

/-- A connection feeds its target with what it was resolved with. -/
theorem fed_deliver {target : Node} {conn : Connection}
    (hconn : conn ∈ p.wiring.connectionsTo target.id) {state : Inputs × Pass σ}
    (h : Fed p target state.1 state.2) :
    Fed p target (deliver p state conn).1 (deliver p state conn).2 := by
  rcases state with ⟨inputs, s⟩
  have hsub : s.events ⊆ (deliver p (inputs, s) conn).2.events :=
    (pullSteps_deliver hconn (inputs, s)).events_subset
  have hkept : Fed p target inputs (deliver p (inputs, s) conn).2 := h.mono hsub
  cases hsource : p.wiring.node? conn.fromNode with
  | none => simp only [deliver, hsource] at hkept ⊢; exact hkept
  | some source =>
    cases hd : p.catalogue.get? source.kind with
    | none => simp only [deliver, hsource, hd] at hkept ⊢; exact hkept
    | some d =>
      cases hport : d.isControlOutput conn.fromPort with
      | true => simp only [deliver, hsource, hd, hport] at hkept ⊢; exact hkept
      | false =>
        simp only [deliver, hsource, hd, hport, Bool.false_eq_true, if_false] at hkept ⊢
        cases hvalue : (pull p d source s).1.bind (·.get? conn.fromPort) with
        | none => simp only [hvalue] at hkept ⊢; exact hkept
        | some value =>
          simp only [hvalue] at hkept ⊢
          rcases Option.bind_eq_some_iff.1 hvalue with ⟨outputs, houtputs, hget⟩
          intro port other hother
          rw [Inputs.get?, Inputs.insert, Table.get?_insert] at hother
          split at hother
          · -- The value that has just arrived, at the port of this connection.
            rename_i htoPort
            cases hother
            refine ⟨conn, outputs, hconn, htoPort, ?_, hget⟩
            rw [← houtputs]
            exact List.mem_cons_self
          · exact hkept port other hother

/-- So all inputs that are assembled were found at the ports of connections. -/
theorem fed_assemble (p : Plan σ) (target : Node) (s : Pass σ) :
    Fed p target (assemble p target s).1 (assemble p target s).2 := by
  have hfold : ∀ (conns : List Connection) (state : Inputs × Pass σ),
      conns ⊆ p.wiring.connectionsTo target.id → Fed p target state.1 state.2 →
      Fed p target (conns.foldl (deliver p) state).1 (conns.foldl (deliver p) state).2 := by
    intro conns
    induction conns with
    | nil => exact fun _ _ h => h
    | cons conn conns ih =>
      intro state hsub h
      rw [List.cons_subset] at hsub
      exact ih _ hsub.2 (fed_deliver hsub.1 h)
  exact hfold _ ({}, s) (List.Subset.refl _) (fed_empty p target s)

/-! ## Passes in the same state -/

/-- The passes are in the same state, whatever has happened in them. -/
structure Even (s t : Pass σ) : Prop where
  world : t.world = s.world
  memories : t.memories = s.memories
  executed : t.executed = s.executed
  pulled : t.pulled = s.pulled

namespace Even

theorem outcome (h : Even s t) (d : Definition σ) (node : Node) (inputs : Inputs) :
    t.outcome d node inputs = s.outcome d node inputs := by
  rw [Pass.outcome, Pass.outcome, h.world, h.memories]

/-- Runs with the same outcome lead to the same state, if their nodes keep their memories in the same
slot. -/
theorem call (h : Even s t) {d : Definition σ} {node node' : Node} {inputs : Inputs}
    (hid : node'.id = node.id) (houtcome : t.outcome d node' inputs = s.outcome d node inputs)
    (cause : Cause) : Even (s.call d node cause inputs).2 (t.call d node' cause inputs).2 where
  world := by simpa using congrArg Outcome.world houtcome
  memories := by simp only [call_memories, houtcome, h.memories, hid]
  executed := by simpa using h.executed
  pulled := by simpa using h.pulled

theorem mark (h : Even s t) (id : NodeId) :
    Even { s with executed := id :: s.executed } { t with executed := id :: t.executed } :=
  ⟨h.world, h.memories, congrArg (id :: ·) h.executed, h.pulled⟩

theorem keep (h : Even s t) (id : NodeId) (outputs : Option Outputs) :
    Even { s with pulled := s.pulled.insert id outputs }
      { t with pulled := t.pulled.insert id outputs } :=
  ⟨h.world, h.memories, h.executed, congrArg (·.insert id outputs) h.pulled⟩

end Even

/-! ## Pairings -/

/-- Nothing but such events has been told. -/
def Clean (good : Event → Prop) (s : Pass σ) : Prop := ∀ e ∈ s.events, good e

theorem Clean.of_subset {good : Event → Prop} (h : Clean good t) (hsub : s.events ⊆ t.events) :
    Clean good s :=
  fun e he => h e (hsub he)

/-- A relation between the states of two walks that holds on, wherever the walks are as long as they
stay inside a part of the first plan that no connection leaves.  There the second plan keeps some of the
connections of the first one; at the others the first walk has to stay in the relation while the second
one waits, as long as it tells nothing but good events. -/
structure Pairing (p q : Plan σ) (inside : NodeId → Prop) (keep : Connection → Bool)
    (good : Event → Prop) (R : Pass σ → Pass σ → Prop) : Prop where
  maxDepth : q.config.maxDepth = p.config.maxDepth
  outgoing : ∀ id, inside id →
    q.wiring.connectionsFrom id = (p.wiring.connectionsFrom id).filter keep
  incoming : ∀ id, inside id →
    q.wiring.connectionsTo id = (p.wiring.connectionsTo id).filter keep
  target : ∀ id, inside id → ∀ conn ∈ p.wiring.connectionsFrom id, keep conn = true →
    q.wiring.node? conn.toNode = p.wiring.node? conn.toNode ∧
      ∀ n, p.wiring.node? conn.toNode = some n → inside n.id
  source : ∀ id, inside id → ∀ conn ∈ p.wiring.connectionsTo id, keep conn = true →
    q.wiring.node? conn.fromNode = p.wiring.node? conn.fromNode ∧
      ∀ n, p.wiring.node? conn.fromNode = some n → inside n.id
  kind : ∀ id node, p.wiring.node? id = some node → inside node.id →
    q.catalogue.get? node.kind = p.catalogue.get? node.kind
  executed : ∀ {s t id}, inside id → R s t → (id ∈ t.executed ↔ id ∈ s.executed)
  told : ∀ {s t e}, Tells p e → R s t → R (s.record e) (t.record e)
  entered : ∀ {s t id node d inputs} (depth), p.wiring.node? id = some node → inside node.id →
    p.catalogue.get? node.kind = some d → Fed p node inputs s → R s t →
    (t.enter d node depth inputs).1 = (s.enter d node depth inputs).1 ∧
      R (s.enter d node depth inputs).2 (t.enter d node depth inputs).2
  pulled : ∀ {s t id conn source d}, conn ∈ p.wiring.connectionsTo id →
    p.wiring.node? conn.fromNode = some source → inside source.id →
    p.catalogue.get? source.kind = some d → d.isControlOutput conn.fromPort = false → R s t →
    (pull q d source t).1 = (pull p d source s).1 ∧
      R (pull p d source s).2 (pull q d source t).2
  undelivered : ∀ {s t id conn inputs}, inside id → conn ∈ p.wiring.connectionsTo id →
    keep conn = false → R s t → Clean good (deliver p (inputs, s) conn).2 →
    (deliver p (inputs, s) conn).1 = inputs ∧ R (deliver p (inputs, s) conn).2 t
  unfollowed : ∀ {s t room depth d node outputs conn}, inside node.id →
    depth + room = p.config.maxDepth → conn ∈ p.wiring.connectionsFrom node.id →
    keep conn = false → R s t →
    Clean good (follow p (descent p room depth) depth d node outputs s conn) →
    R (follow p (descent p room depth) depth d node outputs s conn) t

/-- If both runs of a source leave the same outputs and keep a relation, so do both pulls, as long as the
results that are kept for the source are the same. -/
theorem pull_rel {R : Pass σ → Pass σ → Prop} {d : Definition σ} {source : Node}
    (hpolicy : q.config.pullPolicy = p.config.pullPolicy)
    (hpulled : t.pulled.get? source.id = s.pulled.get? source.id) (hst : R s t)
    (hcall : (t.call d source .pulled {}).1 = (s.call d source .pulled {}).1 ∧
      R (s.call d source .pulled {}).2 (t.call d source .pulled {}).2)
    (hkept : ∀ s t outputs, R s t →
      R { s with pulled := s.pulled.insert source.id outputs }
        { t with pulled := t.pulled.insert source.id outputs }) :
    (pull q d source t).1 = (pull p d source s).1 ∧
      R (pull p d source s).2 (pull q d source t).2 := by
  unfold pull
  rw [hpolicy]
  split
  · rw [hpulled]
    split
    · exact ⟨rfl, hst⟩
    · refine ⟨hcall.1, ?_⟩
      simp only [hcall.1]
      exact hkept _ _ _ hcall.2
  · exact hcall

namespace Pairing

variable {inside : NodeId → Prop} {keep : Connection → Bool} {good : Event → Prop}
  {R : Pass σ → Pass σ → Prop}

/-- Lists of connections are walked through in step, the second walk waiting at those it lacks.  The
relation is asked for only where nothing but good events has been told. -/
theorem foldl {α : Type} (events : α → Pass σ) {f g : α → Connection → α} {r : α → α → Prop}
    {l : List Connection} {a b : α}
    (hgrow : ∀ a, ∀ conn ∈ l, (events a).events ⊆ (events (f a conn)).events)
    (hkept : ∀ a b, ∀ conn ∈ l, keep conn = true → r a b → Clean good (events (f a conn)) →
      r (f a conn) (g b conn))
    (hlacking : ∀ a b, ∀ conn ∈ l, keep conn = false → r a b → Clean good (events (f a conn)) →
      r (f a conn) b)
    (hab : r a b) (hclean : Clean good (events (l.foldl f a))) :
    r (l.foldl f a) ((l.filter keep).foldl g b) := by
  rw [List.foldl_filter]
  refine List.foldl_rel (r := fun a b => Clean good (events a) → r a b) (fun _ => hab) ?_ hclean
  intro conn hconn a b hrel hclean
  have hbefore : r a b := hrel (hclean.of_subset (hgrow a conn hconn))
  cases hkeep : keep conn with
  | true => exact hkept a b conn hconn hkeep hbefore hclean
  | false => exact hlacking a b conn hconn hkeep hbefore hclean

variable (h : Pairing p q inside keep good R)

include h

/-- A connection that both plans have delivers alike. -/
theorem deliver {id : NodeId} {conn : Connection} {inputs : Inputs} (hin : inside id)
    (hconn : conn ∈ p.wiring.connectionsTo id) (hkeep : keep conn = true) (hst : R s t) :
    (deliver q (inputs, t) conn).1 = (deliver p (inputs, s) conn).1 ∧
      R (deliver p (inputs, s) conn).2 (deliver q (inputs, t) conn).2 := by
  rcases h.source id hin conn hconn hkeep with ⟨hnode, hinside⟩
  cases hsource : p.wiring.node? conn.fromNode with
  | none =>
    rw [hsource] at hnode
    simp only [Pass.deliver, hsource, hnode]
    exact ⟨trivial, hst⟩
  | some source =>
    rw [hsource] at hnode
    have hin' : inside source.id := hinside source hsource
    -- Both walks find the same source, and its kind is the same in both.
    have hkind := h.kind conn.fromNode source hsource hin'
    cases hd : p.catalogue.get? source.kind with
    | none =>
      rw [hd] at hkind
      simp only [Pass.deliver, hsource, hnode, hd, hkind]
      exact ⟨trivial, hst⟩
    | some d =>
      rw [hd] at hkind
      cases hport : d.isControlOutput conn.fromPort with
      | true =>
        simp only [Pass.deliver, hsource, hnode, hd, hkind, hport, if_true]
        exact ⟨trivial, hst⟩
      | false =>
        rcases h.pulled hconn hsource hin' hd hport hst with ⟨houtputs, hpulled⟩
        have hresolved := h.told (.resolved hconn hsource hd hport (pull p d source s).1) hpulled
        simp only [Pass.deliver, hsource, hnode, hd, hkind, hport, Bool.false_eq_true, if_false,
          houtputs]
        split
        · exact ⟨rfl, hresolved⟩
        · exact ⟨rfl, h.told (.nothingToPull _ _) hresolved⟩

/-- Inputs are assembled alike: connections that the second plan lacks deliver nothing good. -/
theorem assemble {target : Node} (hin : inside target.id) (hst : R s t)
    (hclean : Clean good (assemble p target s).2) :
    (assemble q target t).1 = (assemble p target s).1 ∧
      R (assemble p target s).2 (assemble q target t).2 := by
  unfold Pass.assemble at hclean ⊢
  rw [h.incoming _ hin]
  refine foldl Prod.snd (r := fun a b => b.1 = a.1 ∧ R a.2 b.2) ?_ ?_ ?_
    ⟨rfl, hst⟩ hclean
  · intro state conn hconn
    exact (pullSteps_deliver hconn state).events_subset
  · rintro ⟨inputs, s⟩ ⟨inputs', t⟩ conn hconn hkeep ⟨hinputs, hst⟩ -
    have hinputs : inputs' = inputs := hinputs
    subst hinputs
    exact h.deliver hin hconn hkeep hst
  · rintro ⟨inputs, s⟩ ⟨inputs', t⟩ conn hconn hkeep ⟨hinputs, hst⟩ hclean
    rcases h.undelivered hin hconn hkeep hst hclean with ⟨hsame, hst⟩
    exact ⟨hinputs.trans hsame.symm, hst⟩

/-- If both walks follow connections alike, they push the node alike. -/
theorem push_of_follow {room depth : Nat} (hroom : depth + room = p.config.maxDepth) {id : NodeId}
    {node : Node} {inputs : Inputs} (hnode : p.wiring.node? id = some node) (hin : inside node.id)
    (hfed : Fed p node inputs s) (hst : R s t)
    (hclean : Clean good (push p room depth node inputs s))
    (hfollow : ∀ d outputs, p.catalogue.get? node.kind = some d →
      ∀ conn ∈ p.wiring.connectionsFrom node.id, keep conn = true → ∀ s t, R s t →
      Clean good (follow p (descent p room depth) depth d node outputs s conn) →
      R (follow p (descent p room depth) depth d node outputs s conn)
        (follow q (descent q room depth) depth d node outputs t conn)) :
    R (push p room depth node inputs s) (push q room depth node inputs t) := by
  have hkind := h.kind id node hnode hin
  cases hd : p.catalogue.get? node.kind with
  | none =>
    rw [push_of_unknown hd, push_of_unknown (hkind.trans hd)]
    exact h.told (.kindMissing hnode hd) hst
  | some d =>
    have hexecuted := h.executed hin hst
    by_cases hmay : MayEnter d node s
    · have hmay' : MayEnter d node t := by
        rw [MayEnter, hexecuted]
        exact hmay
      rcases h.entered depth hnode hin hd hfed hst with ⟨houtputs, hentered⟩
      rw [push_of_mayEnter hd hmay] at hclean ⊢
      rw [push_of_mayEnter (hkind.trans hd) hmay', houtputs]
      cases hleft : (s.enter d node depth inputs).1 with
      | none => exact hentered
      | some outputs =>
        simp only [hleft] at hclean
        -- What follows is a walk through the connections behind the node.
        unfold followAll at hclean ⊢
        rw [h.outgoing _ hin]
        refine foldl (fun s => s) ?_ ?_ ?_ (h.told (.produced _ _ _) hentered) hclean
        · intro s conn hconn
          exact events_subset_follow hroom s conn
        · intro s t conn hconn hkeep hst hclean
          exact hfollow d outputs hd conn hconn hkeep s t hst hclean
        · intro s t conn hconn hkeep hst hclean
          exact h.unfollowed hin hroom hconn hkeep hst hclean
    · have hmay' : ¬ MayEnter d node t := by
        rw [MayEnter, hexecuted]
        exact hmay
      rw [push_of_executed hd hmay, push_of_executed (hkind.trans hd) hmay']
      exact hst

/-- If both walks push alike with less room, they follow a connection alike that both have. -/
theorem follow_of_push {room depth : Nat} {id : NodeId} {d : Definition σ} {node : Node}
    {outputs : Outputs} {conn : Connection} (hid : p.wiring.node? id = some node)
    (hin : inside node.id) (hd : p.catalogue.get? node.kind = some d)
    (hconn : conn ∈ p.wiring.connectionsFrom node.id)
    (hkeep : keep conn = true) (hst : R s t)
    (hclean : Clean good (follow p (descent p room depth) depth d node outputs s conn))
    (hroom : depth + room = p.config.maxDepth)
    (hpush : ∀ less target inputs s t, room = less + 1 →
      p.wiring.node? conn.toNode = some target → inside target.id → Fed p target inputs s → R s t →
      Clean good (push p less (depth + 1) target inputs s) →
      R (push p less (depth + 1) target inputs s) (push q less (depth + 1) target inputs t)) :
    R (follow p (descent p room depth) depth d node outputs s conn)
      (follow q (descent q room depth) depth d node outputs t conn) := by
  rcases h.target node.id hin conn hconn hkeep with ⟨hnode, hinside⟩
  by_cases hopen : isOpen d outputs conn.fromPort = true
  · cases htarget : p.wiring.node? conn.toNode with
    | none =>
      rw [htarget] at hnode
      simp only [follow, hopen, if_true, htarget, hnode]
      exact h.told (.targetMissing hconn htarget) hst
    | some target =>
      rw [htarget] at hnode
      cases room with
      | zero =>
        -- At the depth limit the walks stop, at the same limit.
        simp only [follow, hopen, if_true, htarget, hnode, descent, h.maxDepth]
        exact h.told (.depthLimit _ _ _) hst
      | succ less =>
        rw [follow_of_open hopen htarget] at hclean ⊢
        rw [follow_of_open hopen hnode]
        have hfollowed := h.told (.followed hid hd hconn htarget depth) hst
        have hless : (depth + 1) + less = p.config.maxDepth := by omega
        have hsub := events_subset_push hless target
          (Pass.assemble p target (s.record (.followed conn depth))).1
          (Pass.assemble p target (s.record (.followed conn depth))).2
        obtain ⟨hinputs, hassembled⟩ :=
          h.assemble (hinside target htarget) hfollowed (hclean.of_subset hsub)
        rw [hinputs]
        exact hpush less target _ _ _ rfl htarget (hinside target htarget) (fed_assemble p target _)
          hassembled hclean
  · simp only [follow, hopen, Bool.false_eq_true, if_false]
    split
    · exact hst
    · exact h.told (.nothingToPush _ _ _) hst

/-- Pushes inside the part stay related, by induction on the room below the depth limit. -/
theorem push {room depth : Nat} (hroom : depth + room = p.config.maxDepth) {id : NodeId}
    {node : Node} {inputs : Inputs} (hnode : p.wiring.node? id = some node) (hin : inside node.id)
    (hfed : Fed p node inputs s) (hst : R s t)
    (hclean : Clean good (push p room depth node inputs s)) :
    R (push p room depth node inputs s) (push q room depth node inputs t) := by
  -- The induction is on the room below the node: what stands behind it is pushed with less room.
  refine level_induction (P := fun room depth => depth + room = p.config.maxDepth →
    ∀ id node inputs s t, p.wiring.node? id = some node → inside node.id → Fed p node inputs s →
      R s t → Clean good (Pass.push p room depth node inputs s) →
      R (Pass.push p room depth node inputs s) (Pass.push q room depth node inputs t)) ?_
    room depth hroom id node inputs s t hnode hin hfed hst hclean
  intro room depth hless hroom id node inputs s t hnode hin hfed hst hclean
  refine h.push_of_follow hroom hnode hin hfed hst hclean ?_
  intro d outputs hd conn hconn hkeep s t hst hclean
  refine h.follow_of_push hnode hin hd hconn hkeep hst hclean hroom ?_
  intro less target inputs s t hroom' htarget hin hfed hst hclean
  exact hless less hroom' (by omega) _ target inputs s t htarget hin hfed hst hclean

/-- So do starts inside it. -/
theorem start {id : NodeId} (hid : q.wiring.node? id = p.wiring.node? id)
    (hin : ∀ n, p.wiring.node? id = some n → inside n.id) (hst : R s t)
    (hclean : Clean good (start p s id)) : R (start p s id) (start q t id) := by
  unfold Pass.start at hclean ⊢
  rw [hid]
  cases hnode : p.wiring.node? id with
  | none => exact hst
  | some node =>
    simp only [hnode] at hclean
    simp only [h.maxDepth]
    exact h.push (Nat.zero_add _) hnode (hin node hnode) (fed_empty p node s) hst hclean

omit h in
/-- If the part is all of the plan, the relation holds at the end of two passes with the same start
nodes. -/
theorem pass (h : Pairing p q (fun _ => True) keep good R) (starts : List NodeId)
    (hstarts : ∀ id ∈ starts, q.wiring.node? id = p.wiring.node? id)
    {world world' : World σ} {memories memories' : Table NodeId Slot}
    (hst : R { world, memories } { world := world', memories := memories' })
    (hclean : Clean good (p.pass starts world memories)) :
    R (p.pass starts world memories) (q.pass starts world' memories') := by
  unfold Plan.pass at hclean ⊢
  refine List.foldl_rel (r := fun s t => Clean good s → R s t) (fun _ => hst) ?_ hclean
  intro id hid s t hrel hclean
  have hsteps : Steps p [id] s (Pass.start p s id) := steps_start List.mem_cons_self
  exact h.start (hstarts id hid) (fun _ _ => trivial) (hrel (hclean.of_subset hsteps.events_subset))
    hclean

end Pairing

/-- What is preserved by everything that a pass tells and by runs inside a part of the plan pairs walks
in this part with themselves. -/
theorem pairing_self {inside : NodeId → Prop} {I : Pass σ → Prop}
    (htarget : ∀ id, inside id → ∀ conn ∈ p.wiring.connectionsFrom id,
      ∀ n, p.wiring.node? conn.toNode = some n → inside n.id)
    (hsource : ∀ id, inside id → ∀ conn ∈ p.wiring.connectionsTo id,
      ∀ n, p.wiring.node? conn.fromNode = some n → inside n.id)
    (htold : ∀ s e, Tells p e → I s → I (s.record e))
    (hentered : ∀ s id node d depth inputs, p.wiring.node? id = some node → inside node.id →
      p.catalogue.get? node.kind = some d → Fed p node inputs s → I s →
      I (s.enter d node depth inputs).2)
    (hpulled : ∀ s id conn source d, conn ∈ p.wiring.connectionsTo id →
      p.wiring.node? conn.fromNode = some source → inside source.id →
      p.catalogue.get? source.kind = some d → d.isControlOutput conn.fromPort = false → I s →
      I (pull p d source s).2) :
    Pairing p p inside (fun _ => true) (fun _ => True) (fun s t => t = s ∧ I s) := by
  constructor
  -- There is one plan only, so nothing is left to show but that a walk stays inside and keeps `I`.
  case maxDepth => rfl
  case outgoing => intro id _; exact (List.filter_true _).symm
  case incoming => intro id _; exact (List.filter_true _).symm
  case target => intro id hin conn hconn _; exact ⟨rfl, htarget id hin conn hconn⟩
  case source => intro id hin conn hconn _; exact ⟨rfl, hsource id hin conn hconn⟩
  case kind => intro _ _ _ _; rfl
  case executed => rintro s t id _ ⟨rfl, -⟩; rfl
  case told =>
    rintro s t e htells ⟨rfl, hs⟩
    exact ⟨rfl, htold t e htells hs⟩
  case entered =>
    rintro s t id node d inputs depth hnode hin hd hfed ⟨rfl, hs⟩
    exact ⟨rfl, rfl, hentered t id node d depth inputs hnode hin hd hfed hs⟩
  case pulled =>
    rintro s t id conn source d hconn hsource hin hd hport ⟨rfl, hs⟩
    exact ⟨rfl, rfl, hpulled t id conn source d hconn hsource hin hd hport hs⟩
  case undelivered => intro _ _ _ _ _ _ _ hkeep; cases hkeep
  case unfollowed => intro _ _ _ _ _ _ _ _ _ _ _ hkeep; cases hkeep

end Pass

/-- What is preserved by everything that a pass tells and by runs, wherever they take place, holds at
the end of a pass. -/
theorem Plan.pass_of_tells {p : Plan σ} {I : Pass σ → Prop}
    (htold : ∀ s e, Pass.Tells p e → I s → I (s.record e))
    (hentered : ∀ s id node d depth inputs, p.wiring.node? id = some node →
      p.catalogue.get? node.kind = some d → Pass.Fed p node inputs s → I s →
      I (s.enter d node depth inputs).2)
    (hpulled : ∀ s id conn source d, conn ∈ p.wiring.connectionsTo id →
      p.wiring.node? conn.fromNode = some source → p.catalogue.get? source.kind = some d →
      d.isControlOutput conn.fromPort = false → I s → I (Pass.pull p d source s).2)
    (starts : List NodeId) {world : World σ} {memories : Table NodeId Slot}
    (hstart : I { world, memories }) : I (p.pass starts world memories) := by
  have hpairing : Pass.Pairing p p (fun _ => True) (fun _ => true) (fun _ => True)
      (fun s t => t = s ∧ I s) :=
    Pass.pairing_self (fun _ _ _ _ _ _ => trivial) (fun _ _ _ _ _ _ => trivial) htold
      (fun s id node d depth inputs hnode _ => hentered s id node d depth inputs hnode)
      (fun s id conn source d hconn hsource _ => hpulled s id conn source d hconn hsource)
  exact (hpairing.pass starts (fun _ _ => rfl) ⟨rfl, hstart⟩ (fun _ _ => trivial)).2

end GraphScript

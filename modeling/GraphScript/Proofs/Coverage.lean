import GraphScript.Proofs.Pushes
import GraphScript.Kind.Standard
import Mathlib.Data.Finset.Card
import Mathlib.Data.Finset.Insert

/-!
# Coverage — a pass misses nothing that it can reach

- `Graph.Reached` is the least set of nodes that holds the start nodes and the targets of all
  connections that the pushes of a pass opened. Which connections those are is up to the outputs of
  the pushes themselves.
- `Pass.Progress` is the invariant of the walk: whatever has been entered since some earlier state
  is closed, that is, everything it opened has been pushed too.
- `Executor.pushed_iff_reached`: with room for every node, and without connections into frame
  triggers, a pass pushes exactly what is reached.
-/

namespace GraphScript

variable {σ : Type}

/-- The run is a push that opened a connection to the node. -/
def Call.LeadsTo (call : Call) (g : Graph) (c : Catalogue σ) (id : NodeId) : Prop :=
  call.isPush = true ∧
    ∃ conn ∈ g.connections, conn.fromNode = call.node.id ∧ call.Opens c conn.fromPort ∧
      conn.toNode = id

/-- Start nodes are reached, and so are nodes of known kinds to which the runs lead from nodes that
are reached. -/
inductive Graph.Reached (g : Graph) (c : Catalogue σ) (starts : List NodeId) (runs : List Call) :
    NodeId → Prop where
  | start {id : NodeId} (hid : id ∈ starts) : Reached g c starts runs id
  | follow {call : Call} {id : NodeId} (hsource : Reached g c starts runs call.node.id)
      (hcall : call ∈ runs) (hleads : call.LeadsTo g c id)
      (hknown : ∃ d, g.definition? c id = some d) : Reached g c starts runs id

namespace Pass

variable {p : Plan σ} {ids : List NodeId} {s t u : Pass σ}

/-! ## Plans without traps -/

/-- The nodes of the plan are among the ids, there is room to push them all inside each other, and no
connection leads to a frame trigger. -/
structure Spacious (p : Plan σ) (ids : List NodeId) : Prop where
  keyed : p.wiring.Keyed
  mem_ids : ∀ id n, p.wiring.node? id = some n → id ∈ ids
  room : ids.toFinset.card ≤ p.config.maxDepth
  plain : ∀ source, ∀ conn ∈ p.wiring.connectionsFrom source, ∀ n d,
    p.wiring.node? conn.toNode = some n → p.catalogue.get? n.kind = some d →
    d.frameTrigger = false

/-! ## Progress -/

/-- If the outputs open the connection and its target is known, the target has been pushed. -/
def Arrived (p : Plan σ) (d : Definition σ) (outputs : Outputs) (conn : Connection) (t : Pass σ) :
    Prop :=
  d.Carries outputs conn.fromPort → ∀ n d', p.wiring.node? conn.toNode = some n →
    p.catalogue.get? n.kind = some d' → n.id ∈ t.executed

/-- All that the run opened has been pushed. -/
def Closed (p : Plan σ) (t : Pass σ) (call : Call) : Prop :=
  ∀ d outputs, p.catalogue.get? call.node.kind = some d → call.outputs = some outputs →
    ∀ conn ∈ p.wiring.connectionsFrom call.node.id, Arrived p d outputs conn t

theorem Arrived.mono {d : Definition σ} {outputs : Outputs} {conn : Connection}
    (h : Arrived p d outputs conn t) (hsub : t.executed ⊆ u.executed) :
    Arrived p d outputs conn u :=
  fun hcarries n d' hn hd' => hsub (h hcarries n d' hn hd')

/-- More marks open no new connections. -/
theorem Closed.mono {call : Call} (h : Closed p t call) (hsub : t.executed ⊆ u.executed) :
    Closed p u call :=
  fun d outputs hd houtputs conn hconn => (h d outputs hd houtputs conn hconn).mono hsub

/-- From one state to a later one, marks are kept, only nodes among the ids are marked, and every
push in between is closed. -/
structure Progress (p : Plan σ) (ids : List NodeId) (s t : Pass σ) : Prop where
  marks : s.executed ⊆ t.executed
  within : t.executed ⊆ ids
  closed : ∀ call ∈ t.calls, call.isPush = true → call ∈ s.calls ∨ Closed p t call

namespace Progress

theorem refl (hs : s.executed ⊆ ids) : Progress p ids s s :=
  ⟨List.Subset.refl _, hs, fun _ hcall _ => Or.inl hcall⟩

/-- Progress adds up: what was closed stays closed, since marks are never taken back. -/
theorem trans (hst : Progress p ids s t) (htu : Progress p ids t u) : Progress p ids s u := by
  refine ⟨List.Subset.trans hst.marks htu.marks, htu.within, ?_⟩
  intro call hcall hpush
  rcases htu.closed call hcall hpush with hbefore | hclosed
  · rcases hst.closed call hbefore hpush with hbefore | hclosed
    · exact Or.inl hbefore
    · exact Or.inr (hclosed.mono htu.marks)
  · exact Or.inr hclosed

/-- Pulling pushes nothing. -/
theorem of_pullSteps (h : PullSteps p s t) (hs : s.executed ⊆ ids) : Progress p ids s t := by
  have hmarks : t.executed = s.executed := h.executed_eq
  refine ⟨by rw [hmarks]; exact List.Subset.refl _, by rw [hmarks]; exact hs, ?_⟩
  intro call hcall hpush
  rcases h.isPush_eq_false hcall with hbefore | hpull
  · exact Or.inl hbefore
  · rw [hpush] at hpull
    cases hpull

/-- A fold over a list makes progress, if each of its rounds does. What a round achieves, and later
marks do not undo, is achieved at the end. -/
theorem foldl {α : Type} {f : Pass σ → α → Pass σ} {Q : α → Pass σ → Prop}
    (hmono : ∀ a t u, Q a t → t.executed ⊆ u.executed → Q a u) (l : List α) (s : Pass σ)
    (hs : s.executed ⊆ ids)
    (hround : ∀ a ∈ l, ∀ t, Progress p ids s t → Progress p ids t (f t a) ∧ Q a (f t a)) :
    Progress p ids s (l.foldl f s) ∧ ∀ a ∈ l, Q a (l.foldl f s) := by
  induction l generalizing s with
  | nil => exact ⟨refl hs, fun a ha => absurd ha List.not_mem_nil⟩
  | cons a l ih =>
    rcases hround a List.mem_cons_self s (refl hs) with ⟨hfirst, hachieved⟩
    have hrest := ih (f s a) hfirst.within fun a' ha' t ht =>
      hround a' (List.mem_cons_of_mem _ ha') t (hfirst.trans ht)
    refine ⟨hfirst.trans hrest.1, ?_⟩
    intro a' ha'
    rcases List.mem_cons.1 ha' with rfl | ha'
    · exact hmono _ _ _ hachieved hrest.1.marks
    · exact hrest.2 a' ha'

end Progress

/-! ## Marks and room -/

def marked (s : Pass σ) : Nat := s.executed.toFinset.card

theorem marked_le {l : List NodeId} (h : s.executed ⊆ l) : s.marked ≤ l.toFinset.card :=
  Finset.card_le_card fun _ hid => List.mem_toFinset.2 (h (List.mem_toFinset.1 hid))

/-- A node that is pushed for the first time is one more that is marked. -/
theorem marked_enter {d : Definition σ} {node : Node} {depth : Nat} {inputs : Inputs}
    (h : node.id ∉ s.executed) : (s.enter d node depth inputs).2.marked = s.marked + 1 := by
  rw [marked, enter_executed, List.toFinset_cons, Finset.card_insert_of_notMem]
  · rfl
  · rw [List.mem_toFinset]
    exact h

/-! ## Pushing makes progress -/

section Push

variable {room depth : Nat} {d : Definition σ} {node : Node} {inputs : Inputs}

/-- Progress behind the entry of a node is progress, once the run of that node is closed. -/
theorem Progress.of_enter (ht : Progress p ids (s.enter d node depth inputs).2 t)
    (hclosed : Closed p t ⟨node, .pushed depth, inputs, (s.enter d node depth inputs).1⟩) :
    Progress p ids s t ∧ node.id ∈ t.executed := by
  have hmarks : node.id :: s.executed ⊆ t.executed := by
    rw [← enter_executed s d node inputs depth]
    exact ht.marks
  rw [List.cons_subset] at hmarks
  refine ⟨⟨hmarks.2, ht.within, ?_⟩, hmarks.1⟩
  intro call hcall hpush
  rcases ht.closed call hcall hpush with hbefore | hcallClosed
  · rw [enter_calls, List.mem_cons] at hbefore
    rcases hbefore with rfl | hbefore
    · exact Or.inr hclosed
    · exact Or.inl hbefore
  · exact Or.inr hcallClosed

/-- If following connections makes progress and arrives, then entering a node and following all its
connections makes progress, and marks the node. -/
theorem progress_push_of_follow (hd : p.catalogue.get? node.kind = some d)
    (hmay : MayEnter d node s) (hwithin : node.id :: s.executed ⊆ ids)
    (hfollow : ∀ outputs, ∀ conn ∈ p.wiring.connectionsFrom node.id, ∀ t,
      Progress p ids (s.enter d node depth inputs).2 t →
      Progress p ids t (follow p (descent p room depth) depth d node outputs t conn) ∧
        Arrived p d outputs conn (follow p (descent p room depth) depth d node outputs t conn)) :
    Progress p ids s (push p room depth node inputs s) ∧
      node.id ∈ (push p room depth node inputs s).executed := by
  rw [push_of_mayEnter hd hmay]
  have hentered : (s.enter d node depth inputs).2.executed ⊆ ids := by
    rw [enter_executed]
    exact hwithin
  split
  · -- Without outputs no connection is open.
    rename_i hnone
    refine Progress.of_enter (.refl hentered) ?_
    intro d' outputs _ houtputs
    rw [hnone] at houtputs
    cases houtputs
  · rename_i outputs houtputs
    have hnoted : Progress p ids (s.enter d node depth inputs).2
        ((s.enter d node depth inputs).2.note (.produced node.id node.kind outputs.values.size)) :=
      .of_pullSteps (.single (.told _ _ rfl)) hentered
    rcases Progress.foldl (Q := Arrived p d outputs) (fun _ _ _ h hsub => h.mono hsub)
      (p.wiring.connectionsFrom node.id) _ hnoted.within
      (fun conn hconn t ht => hfollow outputs conn hconn t (hnoted.trans ht)) with ⟨hfold, harrived⟩
    refine Progress.of_enter (hnoted.trans hfold) ?_
    intro d' outputs' hd' houtputs' conn hconn
    rw [hd, Option.some.injEq] at hd'
    rw [houtputs, Option.some.injEq] at houtputs'
    subst hd' houtputs'
    exact harrived conn hconn

/-- A push of a target, known or not, marked or not, makes progress if its first push does. If its
kind is known, it is marked then. -/
theorem progress_push_of_new (hplain : ∀ d, p.catalogue.get? node.kind = some d →
      d.frameTrigger = false) (hs : s.executed ⊆ ids)
    (hnew : ∀ d, p.catalogue.get? node.kind = some d → node.id ∉ s.executed →
      Progress p ids s (push p room depth node inputs s) ∧
        node.id ∈ (push p room depth node inputs s).executed) :
    Progress p ids s (push p room depth node inputs s) ∧
      ∀ d, p.catalogue.get? node.kind = some d →
        node.id ∈ (push p room depth node inputs s).executed := by
  cases hd : p.catalogue.get? node.kind with
  | none =>
    -- Nothing of an unknown kind is run, and nothing of it is asked for.
    rw [push_of_unknown hd]
    refine ⟨.of_pullSteps (.single (.told _ _ rfl)) hs, ?_⟩
    intro d hd'
    cases hd'
  | some d =>
    by_cases hmarked : node.id ∈ s.executed
    · -- It was pushed before, perhaps by a push that is still going on further up.
      have hskip : ¬ MayEnter d node s := by
        simp [MayEnter, hplain d hd, hmarked]
      rw [push_of_executed hd hskip]
      exact ⟨.refl hs, fun _ _ => hmarked⟩
    · rcases hnew d hd hmarked with ⟨hprogress, hmarked'⟩
      exact ⟨hprogress, fun _ _ => hmarked'⟩

/-- A push of a node that may be entered makes progress. The marks so far outnumber its depth, so
the depth limit is out of reach: there are not enough nodes to get there. -/
theorem progress_push (hp : Spacious p ids) (hroom : depth + room = p.config.maxDepth)
    (s : Pass σ) (hd : p.catalogue.get? node.kind = some d) (hmay : MayEnter d node s)
    (hwithin : node.id :: s.executed ⊆ ids)
    (hdepth : depth < (s.enter d node depth inputs).2.marked) :
    Progress p ids s (push p room depth node inputs s) ∧
      node.id ∈ (push p room depth node inputs s).executed := by
  induction room generalizing depth node inputs d s with
  | zero =>
    -- At the depth limit there would be more marks than nodes.
    have hmarked : (s.enter d node depth inputs).2.marked ≤ ids.toFinset.card :=
      marked_le (by rw [enter_executed]; exact hwithin)
    have hlimit := hp.room
    omega
  | succ room ih =>
    refine progress_push_of_follow hd hmay hwithin ?_
    intro outputs conn hconn t ht
    by_cases hopen : isOpen d outputs conn.fromPort = true
    · cases htarget : p.wiring.node? conn.toNode with
      | none =>
        -- The connection dangles, so there is nowhere to arrive.
        refine ⟨.of_pullSteps (pullSteps_follow fun _ h => absurd htarget h) ht.within, ?_⟩
        intro _ n d' hn _
        rw [htarget] at hn
        cases hn
      | some target =>
        rw [follow_of_open hopen htarget]
        have hpulled : PullSteps p t (assemble p target (t.record (.followed conn depth))).2 :=
          pullSteps_arrive conn depth target
        have hmarks := hpulled.executed_eq
        have hbefore := Progress.of_pullSteps hpulled ht.within
        generalize assemble p target (t.record (.followed conn depth)) = a at hmarks hbefore ⊢
        have hpushed : Progress p ids a.2 (push p room (depth + 1) target a.1 a.2) ∧
            ∀ d', p.catalogue.get? target.kind = some d' →
              target.id ∈ (push p room (depth + 1) target a.1 a.2).executed := by
          refine progress_push_of_new
            (fun d' hd' => hp.plain _ conn hconn target d' htarget hd') hbefore.within ?_
          intro d' hd' hunmarked
          -- The target is new, so the marks stay ahead of the depth.
          have hahead : depth + 1 < (a.2.enter d' target (depth + 1) a.1).2.marked := by
            have hsofar : (s.enter d node depth inputs).2.marked ≤ a.2.marked :=
              marked_le (by rw [hmarks]; exact ht.marks)
            rw [marked_enter hunmarked]
            omega
          have hknown : target.id ∈ ids :=
            hp.mem_ids target.id target (by rw [hp.keyed _ _ htarget]; exact htarget)
          exact ih (by omega) a.2 hd' (Or.inr hunmarked)
            (List.cons_subset.2 ⟨hknown, hbefore.within⟩) hahead
        refine ⟨hbefore.trans hpushed.1, ?_⟩
        intro _ n d' hn hd'
        rw [htarget, Option.some.injEq] at hn
        subst hn
        exact hpushed.2 d' hd'
    · refine ⟨.of_pullSteps (pullSteps_follow fun h => absurd h hopen) ht.within, ?_⟩
      intro hcarries
      exact absurd (isOpen_iff.2 hcarries) hopen

/-- Start nodes are entered whatever is marked, and there is all the room for them. -/
theorem progress_start (hp : Spacious p ids) {id : NodeId}
    (hnode : p.wiring.node? id = some node) (hd : p.catalogue.get? node.kind = some d)
    (htrigger : d.frameTrigger = true) (hs : s.executed ⊆ ids) :
    Progress p ids s (start p s id) ∧ id ∈ (start p s id).executed := by
  have hid : node.id = id := hp.keyed id node hnode
  have hstart : start p s id = push p p.config.maxDepth 0 node {} s := by
    simp [start, hnode]
  have hdepth : 0 < (s.enter d node 0 {}).2.marked := by
    rw [marked, enter_executed]
    exact Finset.card_pos.2 ⟨node.id, by simp⟩
  rw [hstart, ← hid]
  refine progress_push hp (Nat.zero_add _) s hd (Or.inl htrigger) ?_ hdepth
  exact List.cons_subset.2 ⟨hid ▸ hp.mem_ids id node hnode, hs⟩

/-- If there is room for all nodes, every push of a pass is closed at its end. -/
theorem progress_pass (hp : Spacious p ids) (starts : List NodeId)
    (htriggers : ∀ id ∈ starts, ∃ n d, p.wiring.node? id = some n ∧
      p.catalogue.get? n.kind = some d ∧ d.frameTrigger = true)
    (world : World σ) (memories : Table NodeId Slot) :
    Progress p ids { world, memories } (p.pass starts world memories) ∧
      ∀ id ∈ starts, id ∈ (p.pass starts world memories).executed := by
  refine Progress.foldl (Q := fun id t => id ∈ t.executed) (fun _ _ _ hid hsub => hsub hid)
    starts _ (List.nil_subset ids) ?_
  intro id hid t ht
  rcases htriggers id hid with ⟨n, d, hn, hd, htrigger⟩
  exact progress_start hp hn hd htrigger ht.within

end Push

/-! ## Marks are pushes -/

def Backed (s : Pass σ) : Prop :=
  ∀ id ∈ s.executed, ∃ call ∈ s.calls, call.isPush = true ∧ call.node.id = id

/-- Only a push marks its node. -/
theorem backed_steps {starts : List NodeId} (hkeyed : p.wiring.Keyed) (h : Steps p starts s t)
    (hs : s.Backed) : t.Backed := by
  refine h.invariant (I := Backed) ?_ hs
  intro s t hstep hs id hid
  rcases hstep.run_cases hkeyed with ⟨hcalls, hexecuted⟩ | ⟨call, d, hcalls, hexecuted, -⟩
  · rw [hcalls]
    exact hs id (hexecuted ▸ hid)
  · have hkept : id ∈ s.executed → ∃ call' ∈ t.calls, call'.isPush = true ∧ call'.node.id = id := by
      intro hid
      rcases hs id hid with ⟨call', hmem, hcall'⟩
      exact ⟨call', hcalls ▸ List.mem_cons_of_mem _ hmem, hcall'⟩
    rw [hexecuted] at hid
    split at hid
    · rename_i hpush
      rcases List.mem_cons.1 hid with rfl | hid
      · exact ⟨call, hcalls ▸ List.mem_cons_self, hpush, rfl⟩
      · exact hkept hid
    · exact hkept hid

end Pass

/-! ## Both directions -/

namespace Graph

variable {g : Graph} {c : Catalogue σ} {config : ExecutorConfig}

/-- A graph has room under a limit that is not smaller than the number of its ids, unless a connection
leads to a frame trigger. -/
theorem spacious (hplain : ∀ conn ∈ g.connections, g.isTrigger c conn.toNode = false)
    (hroom : (g.nodes.map (·.id)).toFinset.card ≤ config.maxDepth) :
    Pass.Spacious ⟨Wiring.ofGraph g, c, config⟩ (g.nodes.map (·.id)) := by
  constructor
  case keyed => exact Wiring.keyed_ofGraph g
  case mem_ids =>
    intro id n hn
    rw [Wiring.node?_ofGraph] at hn
    exact List.mem_map.2 ⟨n, mem_of_node? hn, id_of_node? hn⟩
  case room => exact hroom
  case plain =>
    intro source conn hconn n d hn hd
    rw [Wiring.connectionsFrom_ofGraph, mem_connectionsFrom] at hconn
    rw [Wiring.node?_ofGraph] at hn
    exact isTrigger_eq_false_iff.1 (hplain conn hconn.1) n d hn hd

end Graph

namespace Pass.Over

variable {g : Graph} {c : Catalogue σ} {config : ExecutorConfig} {s : Pass σ}

/-- The pushes at depth zero are the starts, in their order. -/
theorem starts_ids (h : Over g c config s) :
    (s.calls.reverse.filter (·.cause = .pushed 0)).map (·.node.id) =
      (Wiring.ofGraph g).startNodes c := by
  have hids := congrArg (List.map Prod.fst) h.starts_eq
  rw [List.map_map, List.map_map] at hids
  exact hids.trans (List.map_id _)

theorem exists_definition (h : Over g c config s) {call : Call} (hcall : call ∈ s.calls.reverse) :
    ∃ d, g.definition? c call.node.id = some d := by
  rcases h.known hcall with ⟨hnode, d, hd⟩
  exact ⟨d, Graph.definition?_eq_some_iff.2 ⟨call.node, hnode, hd⟩⟩

theorem mem_startNodes (h : Over g c config s) {call : Call} (hcall : call ∈ s.calls.reverse)
    (hcause : call.cause = .pushed 0) : call.node.id ∈ (Wiring.ofGraph g).startNodes c := by
  rw [← h.starts_ids]
  exact List.mem_map.2 ⟨call, List.mem_filter.2 ⟨hcall, by simp [hcause]⟩, rfl⟩

/-- To a deeper push leads another one, one level above it. -/
theorem exists_source (h : Over g c config s) {call : Call} {depth : Nat}
    (hcall : call ∈ s.calls.reverse) (hcause : call.cause = .pushed (depth + 1)) :
    ∃ source ∈ s.calls.reverse, source.cause = .pushed depth ∧ source.LeadsTo g c call.node.id := by
  rcases List.append_of_mem hcall with ⟨before, rest, hruns⟩
  rcases (h.follows hruns hcause).2 with
    ⟨source, hsource, conn, hconn, hsourceCause, hfrom, hopens, hto⟩
  refine ⟨source, ?_, hsourceCause, Call.isPush_iff.2 ⟨depth, hsourceCause⟩, conn, hconn, hfrom,
    hopens, hto⟩
  rw [hruns]
  exact List.mem_append_left _ hsource

/-- No push is deeper than the limit. -/
theorem depth_le (h : Over g c config s) {call : Call} {depth : Nat}
    (hcall : call ∈ s.calls.reverse) (hcause : call.cause = .pushed depth) :
    depth ≤ config.maxDepth := by
  cases depth with
  | zero => exact Nat.zero_le _
  | succ depth =>
    rcases List.append_of_mem hcall with ⟨before, rest, hruns⟩
    exact (h.follows hruns hcause).1

/-- Every push goes back to a start node, level by level. -/
theorem reached_of_pushed (h : Over g c config s) {call : Call} {depth : Nat}
    (hcall : call ∈ s.calls.reverse) (hcause : call.cause = .pushed depth) :
    g.Reached c ((Wiring.ofGraph g).startNodes c) s.calls.reverse call.node.id := by
  induction depth generalizing call with
  | zero => exact .start (h.mem_startNodes hcall hcause)
  | succ depth ih =>
    rcases h.exists_source hcall hcause with ⟨source, hsource, hsourceCause, hleads⟩
    exact .follow (ih hsource hsourceCause) hsource hleads (h.exists_definition hcall)

/-- Without connections into frame triggers these are pushed as start nodes only. -/
theorem cause_of_trigger (h : Over g c config s)
    (hplain : ∀ conn ∈ g.connections, g.isTrigger c conn.toNode = false) {call : Call}
    (hcall : call ∈ s.calls.reverse) (hpush : call.isPush = true)
    (htrigger : g.isTrigger c call.node.id = true) : call.cause = .pushed 0 := by
  rcases Call.isPush_iff.1 hpush with ⟨depth, hcause⟩
  cases depth with
  | zero => exact hcause
  | succ depth =>
    rcases h.exists_source hcall hcause with ⟨-, -, -, -, conn, hconn, -, -, hto⟩
    rw [← hto, hplain conn hconn] at htrigger
    cases htrigger

/-- Without connections to frame triggers no node is pushed twice, not even a start. -/
theorem pushed_atMostOnce (h : Over g c config s)
    (hplain : ∀ conn ∈ g.connections, g.isTrigger c conn.toNode = false) (id : NodeId) :
    s.calls.reverse.countP (fun call => call.isPush && call.node.id = id) ≤ 1 := by
  cases htrigger : g.isTrigger c id with
  | false => exact h.pushed_once htrigger
  | true =>
    have hzero : ∀ call ∈ s.calls.reverse, call.isPush = true → call.node.id = id →
        call.cause = .pushed 0 := by
      rintro call hcall hpush rfl
      exact h.cause_of_trigger hplain hcall hpush htrigger
    -- So every push of the node is one of the starts, and these have no repeats.
    calc s.calls.reverse.countP (fun call => call.isPush && call.node.id = id)
        ≤ s.calls.reverse.countP (fun call => (call.node.id == id) && call.cause = .pushed 0) := by
          refine List.countP_mono_left ?_
          intro call hcall hpush
          rw [Bool.and_eq_true, decide_eq_true_eq] at hpush
          simp [hpush.2, hzero call hcall hpush.1 hpush.2]
      _ = ((Wiring.ofGraph g).startNodes c).count id := by
          rw [← List.countP_filter, ← h.starts_ids, List.count, List.countP_map]
          rfl
      _ ≤ 1 := List.nodup_iff_count_le_one.1 (Wiring.startNodes_nodup g c) id

end Pass.Over

/-- At the end all that is reached is marked, because the start nodes are and every push is closed. -/
theorem Pass.mem_executed_of_reached {g : Graph} {c : Catalogue σ} {config : ExecutorConfig}
    {s : Pass σ} (hstarts : ∀ id ∈ (Wiring.ofGraph g).startNodes c, id ∈ s.executed)
    (hclosed : ∀ call ∈ s.calls, call.isPush = true →
      Closed ⟨Wiring.ofGraph g, c, config⟩ s call)
    {id : NodeId} (hid : g.Reached c ((Wiring.ofGraph g).startNodes c) s.calls.reverse id) :
    id ∈ s.executed := by
  cases hid with
  | start hid => exact hstarts id hid
  | follow hsource hcall hleads hknown =>
    rcases hleads with ⟨hpush, conn, hconn, hfrom, ⟨d, outputs, hd, houtputs, hcarries⟩, hto⟩
    rcases hknown with ⟨d', hknown⟩
    rcases Graph.definition?_eq_some_iff.1 hknown with ⟨n, hn, hd'⟩
    -- The push that leads here is closed, so it has arrived.
    have harrived := hclosed _ (List.mem_reverse.1 hcall) hpush d outputs hd houtputs conn
      (by rw [Wiring.connectionsFrom_ofGraph, Graph.mem_connectionsFrom]; exact ⟨hconn, hfrom⟩)
    rw [← Graph.id_of_node? hn]
    exact harrived hcarries n d' (by rw [Wiring.node?_ofGraph, hto]; exact hn) hd'

/-- With room for every node, and without connections into frame triggers, each pass pushes exactly
the nodes that are reached, each of them once. -/
theorem Executor.pushed_iff_reached (g : Graph) (c : Catalogue σ) (config : ExecutorConfig)
    (hplain : ∀ conn ∈ g.connections, g.isTrigger c conn.toNode = false)
    (hroom : (g.nodes.map (·.id)).toFinset.card ≤ config.maxDepth)
    (turns : List (Turn σ)) (world : World σ) (id : NodeId) :
    (((ofGraph g c config).1.after turns).runs world).countP
        (fun call => call.isPush && call.node.id = id) ≤ 1 ∧
      ((∃ call ∈ ((ofGraph g c config).1.after turns).runs world,
          call.isPush = true ∧ call.node.id = id) ↔
        g.Reached c (ofGraph g c config).1.startNodes
          (((ofGraph g c config).1.after turns).runs world) id) := by
  rw [runs_after]
  generalize ((ofGraph g c config).1.after turns).memories = memories
  have hover := Pass.over_passEnd g c config world memories
  refine ⟨hover.pushed_atMostOnce hplain id, ?_⟩
  constructor
  · rintro ⟨call, hcall, hpush, rfl⟩
    cases hcause : call.cause with
    | pulled => simp [Call.isPush, hcause] at hpush
    | pushed depth => exact hover.reached_of_pushed hcall hcause
  · intro hid
    have hkeyed : (Wiring.ofGraph g).Keyed := Wiring.keyed_ofGraph g
    have hbacked : (passEnd g c config world memories).Backed :=
      Pass.backed_steps (p := ⟨Wiring.ofGraph g, c, config⟩) hkeyed (Plan.steps_pass _ _ _ _)
        fun _ hid => absurd hid List.not_mem_nil
    rcases Pass.progress_pass (Graph.spacious hplain hroom) ((Wiring.ofGraph g).startNodes c)
      (Wiring.triggers_startNodes g c) world memories with ⟨hprogress, hstarts⟩
    have hclosed : ∀ call ∈ (passEnd g c config world memories).calls, call.isPush = true →
        Pass.Closed ⟨Wiring.ofGraph g, c, config⟩ (passEnd g c config world memories) call := by
      intro call hcall hpush
      -- Before the pass there were no runs.
      rcases hprogress.closed call hcall hpush with hbefore | hclosed
      · cases hbefore
      · exact hclosed
    rcases hbacked id (Pass.mem_executed_of_reached hstarts hclosed hid) with
      ⟨call, hcall, hpush, hnode⟩
    exact ⟨call, List.mem_reverse.2 hcall, hpush, hnode⟩

def Graph.circle : Graph where
  nodes := [.ofKind "start" "OnStart", .ofKind "there" "SetVar", .ofKind "back" "SetVar"]
  connections :=
    [⟨"enter", "start", "exec", "there", "exec"⟩, ⟨"on", "there", "exec", "back", "exec"⟩,
     ⟨"round", "back", "exec", "there", "exec"⟩]

/-- The first pass over a circle goes round it once, and reaches all of it. -/
theorem Executor.reached_circle :
    (∀ conn ∈ Graph.circle.connections,
      Graph.circle.isTrigger (Catalogue.standard : Catalogue HeadlessScene) conn.toNode = false) ∧
    (Graph.circle.nodes.map (·.id)).toFinset.card ≤ ({} : ExecutorConfig).maxDepth ∧
    Graph.circle.Reached (Catalogue.standard : Catalogue HeadlessScene) ["start"]
      (((ofGraph Graph.circle Catalogue.standard).1.after []).runs
        (World.ofHost ({} : HeadlessScene) ⟨fun _ => "", 0⟩)) "back" := by
  have hplain : ∀ conn ∈ Graph.circle.connections,
      Graph.circle.isTrigger (Catalogue.standard : Catalogue HeadlessScene) conn.toNode = false := by
    decide
  have hroom : (Graph.circle.nodes.map (·.id)).toFinset.card ≤ ({} : ExecutorConfig).maxDepth := by
    decide
  refine ⟨hplain, hroom, ?_⟩
  refine (pushed_iff_reached Graph.circle Catalogue.standard {} hplain hroom [] _ "back").2.1 ?_
  have hruns : (((ofGraph Graph.circle Catalogue.standard).1.after []).runs
      (World.ofHost ({} : HeadlessScene) ⟨fun _ => "", 0⟩)).map
        (fun call => (call.node.id, call.isPush)) =
      [("start", true), ("there", true), ("back", true)] := rfl
  have hback : ("back", true) ∈ (((ofGraph Graph.circle Catalogue.standard).1.after []).runs
      (World.ofHost ({} : HeadlessScene) ⟨fun _ => "", 0⟩)).map
        (fun call => (call.node.id, call.isPush)) := by
    rw [hruns]
    decide
  rcases List.mem_map.1 hback with ⟨call, hcall, heq⟩
  rw [Prod.mk.injEq] at heq
  exact ⟨call, hcall, heq.2, heq.1⟩

end GraphScript

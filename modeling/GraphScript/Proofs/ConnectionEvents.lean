import GraphScript.Proofs.ExecutorRuns
import GraphScript.Proofs.PassPairs

/-!
# ConnectionEvents — why connections are followed and what they deliver

- `Pass.WalkInvariant` and `Pass.ArrivalInvariant` — what is preserved at each place of the walk, with
  everything that is known there; `Plan.invariant_of_walk` and `Plan.invariant_of_arrivals` say that it
  holds at the end of a pass;
- `Pass.PlaceInvariant` and `Plan.invariant_of_places` — the same, with something else that is known of
  the inputs of a push;
- `Plan.answered_pass` — all connections that pushes opened are answered in the end: either they are
  followed and their targets pushed, or the depth limit is told;
- `Plan.followed_iff_opened` — a connection is followed from some depth just if a push at that depth
  opened it, its target exists and the depth limit is not reached;
- `Plan.left_of_resolved` — what a connection is resolved with was left by a pull of its source in the
  same pass.
-/

namespace GraphScript

namespace Pass

variable {σ : Type} {p : Plan σ} {s t u : Pass σ} {room depth : Nat} {node : Node} {inputs : Inputs}
  {d : Definition σ} {outputs : Outputs} {conn : Connection}

theorem calls_subset_of_events (h : s.events ⊆ t.events) : s.calls ⊆ t.calls := by
  intro call hcall
  rcases List.mem_filterMap.1 hcall with ⟨e, he, hcalled⟩
  exact List.mem_filterMap.2 ⟨e, h he, hcalled⟩

/-- A node that is entered opens the connections for which its outputs hold what it takes. -/
theorem opened_enter (hd : p.catalogue.get? node.kind = some d)
    (houtputs : (s.enter d node depth inputs).1 = some outputs)
    (hconn : conn ∈ p.wiring.connectionsFrom node.id)
    (hopen : isOpen d outputs conn.fromPort = true) :
    Opened p (s.enter d node depth inputs).2.calls conn depth := by
  refine ⟨⟨node, .pushed depth, inputs, (s.enter d node depth inputs).1⟩, ?_, rfl, hconn, ?_⟩
  · rw [enter_calls]
    exact List.mem_cons_self
  · exact ⟨d, outputs, hd, houtputs, isOpen_iff.1 hopen⟩

/-! ## Place by place -/

/-- The invariant is preserved wherever the walk is, if all inputs with which nodes are pushed have some
property. Assembling inputs gives it to them. -/
structure PlaceInvariant (p : Plan σ) (F : Node → Inputs → Pass σ → Prop) (I : Pass σ → Prop) :
    Prop where
  noted : ∀ s n, (Event.noted n).isOwn = true → I s → I (s.note n)
  entered : ∀ s node d depth inputs, p.wiring.node? node.id = some node →
    p.catalogue.get? node.kind = some d → F node inputs s → I s → I (s.enter d node depth inputs).2
  arrived : ∀ s conn depth target, Opened p s.calls conn depth →
    p.wiring.node? conn.toNode = some target → depth + 1 ≤ p.config.maxDepth → I s →
    I (assemble p target (s.record (.followed conn depth))).2 ∧
      F target (assemble p target (s.record (.followed conn depth))).1
        (assemble p target (s.record (.followed conn depth))).2

/-- The invariant is preserved wherever the walk is, following a connection and assembling the inputs of
its target taken as one. -/
structure ArrivalInvariant (p : Plan σ) (I : Pass σ → Prop) : Prop where
  noted : ∀ s n, (Event.noted n).isOwn = true → I s → I (s.note n)
  entered : ∀ s node d depth inputs, p.wiring.node? node.id = some node →
    p.catalogue.get? node.kind = some d → Fed p node inputs s → I s →
    I (s.enter d node depth inputs).2
  arrived : ∀ s conn depth target, Opened p s.calls conn depth →
    p.wiring.node? conn.toNode = some target → depth + 1 ≤ p.config.maxDepth → I s →
    I (assemble p target (s.record (.followed conn depth))).2

/-- The invariant is preserved wherever the walk is. -/
structure WalkInvariant (p : Plan σ) (I : Pass σ → Prop) : Prop where
  noted : ∀ s n, (Event.noted n).isOwn = true → I s → I (s.note n)
  entered : ∀ s node d depth inputs, p.wiring.node? node.id = some node →
    p.catalogue.get? node.kind = some d → Fed p node inputs s → I s →
    I (s.enter d node depth inputs).2
  resolved : ∀ s target conn source d, conn ∈ p.wiring.connectionsTo target →
    p.wiring.node? conn.fromNode = some source → p.catalogue.get? source.kind = some d →
    d.isControlOutput conn.fromPort = false → I s →
    I ((pull p d source s).2.record (.resolved conn (pull p d source s).1))
  followed : ∀ s conn depth, Opened p s.calls conn depth →
    (∃ target, p.wiring.node? conn.toNode = some target) → depth + 1 ≤ p.config.maxDepth → I s →
    I (s.record (.followed conn depth))

namespace WalkInvariant

variable {I : Pass σ → Prop} (h : WalkInvariant p I)

include h

/-- One connection preserves the invariant, whether it delivers or not. -/
theorem deliver {target : NodeId} (hconn : conn ∈ p.wiring.connectionsTo target)
    (state : Inputs × Pass σ) (hs : I state.2) : I (deliver p state conn).2 := by
  rcases state with ⟨inputs, s⟩
  unfold Pass.deliver
  cases hsource : p.wiring.node? conn.fromNode with
  | none => exact hs
  | some source =>
    cases hd : p.catalogue.get? source.kind with
    | none => simp only [hd]; exact hs
    | some d =>
      cases hport : d.isControlOutput conn.fromPort with
      | true => simp only [hd, hport, if_true]; exact hs
      | false =>
        have hresolved := h.resolved s target conn source d hconn hsource hd hport hs
        simp only [hd, hport, Bool.false_eq_true, if_false]
        split
        · exact hresolved
        · exact h.noted _ _ rfl hresolved

/-- So does assembling the inputs of a node. -/
theorem assemble (target : Node) (hs : I s) : I (assemble p target s).2 := by
  unfold Pass.assemble
  refine List.foldlRecOn (motive := fun (state : Inputs × Pass σ) => I state.2) _ _ hs ?_
  intro state hstate conn hconn
  exact h.deliver hconn state hstate

theorem arrival : ArrivalInvariant p I where
  noted := h.noted
  entered := h.entered
  arrived s conn depth target hopened htarget hdepth hs :=
    h.assemble target (h.followed s conn depth hopened ⟨target, htarget⟩ hdepth hs)

end WalkInvariant

/-- An invariant of arrivals is one of places, at which inputs are what the connections have brought. -/
theorem ArrivalInvariant.places {I : Pass σ → Prop} (h : ArrivalInvariant p I) :
    PlaceInvariant p (Fed p) I where
  noted := h.noted
  entered := h.entered
  arrived s conn depth target hopened htarget hdepth hs :=
    ⟨h.arrived s conn depth target hopened htarget hdepth hs, fed_assemble p target _⟩

namespace PlaceInvariant

variable {F : Node → Inputs → Pass σ → Prop} {I : Pass σ → Prop} (h : PlaceInvariant p F I)

include h

/-- If pushes with less room preserve the invariant, following an open connection does. -/
theorem follow (hkeyed : p.wiring.Keyed) (hroom : depth + room = p.config.maxDepth)
    (hless : ∀ less, room = less + 1 → ∀ target inputs s, p.wiring.node? target.id = some target →
      F target inputs s → I s → I (push p less (depth + 1) target inputs s))
    (hopened : isOpen d outputs conn.fromPort = true → Opened p s.calls conn depth) (hs : I s) :
    I (follow p (descent p room depth) depth d node outputs s conn) := by
  by_cases hopen : isOpen d outputs conn.fromPort = true
  · cases htarget : p.wiring.node? conn.toNode with
    | none =>
      simp only [Pass.follow, hopen, if_true, htarget]
      exact h.noted s _ rfl hs
    | some target =>
      cases room with
      | zero =>
        simp only [Pass.follow, hopen, if_true, htarget, descent]
        -- There is no room, and only the limit is told.
        exact h.noted s _ rfl hs
      | succ less =>
        rw [follow_of_open hopen htarget]
        have hid : target.id = conn.toNode := hkeyed _ _ htarget
        have harrived := h.arrived s conn depth target (hopened hopen) htarget (by omega) hs
        exact hless less rfl target _ _ (hid ▸ htarget) harrived.2 harrived.1
  · simp only [Pass.follow, hopen, Bool.false_eq_true, if_false]
    split
    · exact hs
    · exact h.noted s _ rfl hs

/-- A push preserves the invariant, by induction on the room below the depth limit. -/
theorem push (hkeyed : p.wiring.Keyed) (hroom : depth + room = p.config.maxDepth)
    (hnode : p.wiring.node? node.id = some node) (hinputs : F node inputs s) (hs : I s) :
    I (push p room depth node inputs s) := by
  -- The induction is on the room below the node: the invariant holds before every push behind it.
  refine level_induction (P := fun room depth => depth + room = p.config.maxDepth →
    ∀ node inputs s, p.wiring.node? node.id = some node → F node inputs s → I s →
      I (Pass.push p room depth node inputs s)) ?_ room depth hroom node inputs s hnode hinputs hs
  intro room depth hless hroom node inputs s hnode hinputs hs
  cases hd : p.catalogue.get? node.kind with
  | none =>
    rw [push_of_unknown hd]
    exact h.noted s _ rfl hs
  | some d =>
    by_cases hmay : MayEnter d node s
    · have hentered := h.entered s node d depth inputs hnode hd hinputs hs
      rw [push_of_mayEnter hd hmay]
      cases houtputs : (s.enter d node depth inputs).1 with
      | none => exact hentered
      | some outputs =>
        -- The run of the node stays among the runs while its connections are followed.
        refine (List.foldlRecOn (motive := fun t =>
          I t ∧ (s.enter d node depth inputs).2.events ⊆ t.events) _ _
          ⟨h.noted _ _ rfl hentered, List.subset_cons_self _ _⟩ ?_).1
        rintro t ⟨ht, hsub⟩ conn hconn
        refine ⟨h.follow hkeyed hroom ?_ ?_ ht, ?_⟩
        · exact fun less hroom' => hless less hroom' (by omega)
        · intro hopen
          exact (opened_enter hd houtputs hconn hopen).mono (calls_subset_of_events hsub)
        · exact List.Subset.trans hsub (events_subset_follow hroom t conn)
    · rw [push_of_executed hd hmay]
      exact hs

/-- A start is a push without inputs, if its kind is known. -/
theorem start (hkeyed : p.wiring.Keyed) {id : NodeId}
    (hinputs : ∀ node, p.wiring.node? id = some node → F node {} s) (hs : I s) :
    I (start p s id) := by
  unfold Pass.start
  cases hnode : p.wiring.node? id with
  | none => exact hs
  | some node =>
    have hid : node.id = id := hkeyed _ _ hnode
    exact h.push hkeyed (Nat.zero_add _) (hid ▸ hnode) (hinputs node hnode) hs

end PlaceInvariant

/-! ## Every open connection is answered -/

/-- What becomes of a connection that was opened at the given depth and leads to the target: it is followed,
and the target is marked if its kind is known, or else the depth limit is told. -/
structure Answer (p : Plan σ) (t : Pass σ) (source : NodeId) (conn : Connection) (depth : Nat)
    (target : Node) : Prop where
  followed : depth + 1 ≤ p.config.maxDepth → .followed conn depth ∈ t.events
  marked : depth + 1 ≤ p.config.maxDepth → ∀ d, p.catalogue.get? target.kind = some d →
    target.id ∈ t.executed
  limited : p.config.maxDepth < depth + 1 →
    .noted (.depthLimit p.config.maxDepth source target.id) ∈ t.events

/-- An answer stays one, whatever happens afterwards. -/
theorem Answer.mono {id : NodeId} {target : Node} (h : Answer p t id conn depth target)
    (hevents : t.events ⊆ u.events) (hmarks : t.executed ⊆ u.executed) :
    Answer p u id conn depth target :=
  ⟨fun hdepth => hevents (h.followed hdepth), fun hdepth d hd => hmarks (h.marked hdepth d hd),
    fun hdepth => hevents (h.limited hdepth)⟩

def Answered (p : Plan σ) (t : Pass σ) (call : Call) : Prop :=
  ∀ conn depth target, call.cause = .pushed depth → conn ∈ p.wiring.connectionsFrom call.node.id →
    call.Opens p.catalogue conn.fromPort → p.wiring.node? conn.toNode = some target →
    Answer p t call.node.id conn depth target

/-- From one state to a later one, nothing is forgotten, and all runs in between are answered. -/
structure Answers (p : Plan σ) (s t : Pass σ) : Prop where
  events : s.events ⊆ t.events
  marks : s.executed ⊆ t.executed
  answered : ∀ call ∈ t.calls, call ∈ s.calls ∨ Answered p t call

namespace Answers

theorem refl (s : Pass σ) : Answers p s s :=
  ⟨List.Subset.refl _, List.Subset.refl _, fun _ hcall => Or.inl hcall⟩

/-- Nothing is forgotten in between either. -/
theorem trans (hst : Answers p s t) (htu : Answers p t u) : Answers p s u := by
  refine ⟨List.Subset.trans hst.events htu.events, List.Subset.trans hst.marks htu.marks, ?_⟩
  intro call hcall
  rcases htu.answered call hcall with hbefore | hanswered
  · rcases hst.answered call hbefore with hbefore | hanswered
    · exact Or.inl hbefore
    · refine Or.inr ?_
      intro conn depth target hcause hconn hopens htarget
      exact (hanswered conn depth target hcause hconn hopens htarget).mono htu.events htu.marks
  · exact Or.inr hanswered

/-- Pulls open nothing. -/
theorem of_pullSteps (h : PullSteps p s t) : Answers p s t := by
  refine ⟨h.events_subset, by rw [h.executed_eq]; exact List.Subset.refl _, ?_⟩
  intro call hcall
  rcases h.isPush_eq_false hcall with hbefore | hpull
  · exact Or.inl hbefore
  · refine Or.inr ?_
    intro conn depth target hcause
    rw [Call.isPush, hcause] at hpull
    cases hpull

/-- If following a connection answers it and all that it brings about, following all connections behind a
node does. -/
theorem followAll {f : Pass σ → Connection → Pass σ} {P : Connection → Node → Prop}
    (hfollow : ∀ t conn, Answers p t (f t conn) ∧
      ∀ target, P conn target → Answer p (f t conn) node.id conn depth target)
    (conns : List Connection) (s : Pass σ) :
    Answers p s (conns.foldl f s) ∧
      ∀ conn ∈ conns, ∀ target, P conn target →
        Answer p (conns.foldl f s) node.id conn depth target := by
  induction conns generalizing s with
  | nil => exact ⟨refl s, fun _ hconn => absurd hconn List.not_mem_nil⟩
  | cons conn conns ih =>
    have hfirst := hfollow s conn
    have hrest := ih (f s conn)
    refine ⟨hfirst.1.trans hrest.1, ?_⟩
    intro other hother target htarget
    rcases List.mem_cons.1 hother with rfl | hother
    · exact (hfirst.2 target htarget).mono hrest.1.events hrest.1.marks
    · exact hrest.2 other hother target htarget

/-- If pushes with less room answer what they bring about and mark their nodes, following a connection
answers it. -/
theorem follow (hroom : depth + room = p.config.maxDepth)
    (hless : ∀ less, room = less + 1 → ∀ target inputs s,
      Answers p s (Pass.push p less (depth + 1) target inputs s) ∧
        ∀ d, p.catalogue.get? target.kind = some d →
          target.id ∈ (Pass.push p less (depth + 1) target inputs s).executed)
    (t : Pass σ) (conn : Connection) :
    Answers p t (follow p (descent p room depth) depth d node outputs t conn) ∧
      ∀ target, isOpen d outputs conn.fromPort = true ∧ p.wiring.node? conn.toNode = some target →
        Answer p (follow p (descent p room depth) depth d node outputs t conn) node.id conn depth
          target := by
  by_cases hpushes : isOpen d outputs conn.fromPort = true ∧ p.wiring.node? conn.toNode ≠ none
  · rcases hpushes with ⟨hopen, hsome⟩
    rcases Option.ne_none_iff_exists'.1 hsome with ⟨target, htarget⟩
    have hunique : ∀ target', isOpen d outputs conn.fromPort = true ∧
        p.wiring.node? conn.toNode = some target' → target' = target :=
      fun target' h => Option.some.inj (h.2.symm.trans htarget)
    cases room with
    | zero =>
      refine ⟨of_pullSteps (pullSteps_follow fun _ _ => rfl), ?_⟩
      intro target' htarget'
      obtain rfl := hunique target' htarget'
      -- There is no room below, so the depth is the limit, and this is told.
      refine ⟨fun _ => by omega, fun _ => by omega, fun _ => ?_⟩
      simp only [Pass.follow, hopen, if_true, htarget, descent]
      exact List.mem_cons_self
    | succ less =>
      rw [follow_of_open hopen htarget]
      have hpulled := pullSteps_arrive (p := p) (s := t) conn depth target
      rcases hless less rfl target _
        (assemble p target (t.record (.followed conn depth))).2 with ⟨hpushed, hmarked⟩
      refine ⟨(of_pullSteps hpulled).trans hpushed, ?_⟩
      intro target' htarget'
      obtain rfl := hunique target' htarget'
      refine ⟨fun _ => ?_, fun _ => hmarked, fun _ => by omega⟩
      exact hpushed.events ((pullSteps_assemble target').events_subset List.mem_cons_self)
  · refine ⟨of_pullSteps (pullSteps_follow fun hopen hsome => absurd ⟨hopen, hsome⟩ hpushes), ?_⟩
    intro target htarget
    exact absurd ⟨htarget.1, by rw [htarget.2]; exact Option.some_ne_none target⟩ hpushes

/-- What follows the entry of a node answers all runs if it answers the run of the node. -/
theorem of_entered (h : Answers p (s.enter d node depth inputs).2 t)
    (hown : Answered p t ⟨node, .pushed depth, inputs, (s.enter d node depth inputs).1⟩) :
    Answers p s t ∧ node.id ∈ t.executed := by
  have hmarks := h.marks
  rw [enter_executed, List.cons_subset] at hmarks
  refine ⟨⟨List.Subset.trans (events_subset_enter s d node depth inputs) h.events, hmarks.2, ?_⟩,
    hmarks.1⟩
  intro call hcall
  rcases h.answered call hcall with hbefore | hanswered
  · rw [enter_calls, List.mem_cons] at hbefore
    rcases hbefore with rfl | hbefore
    · exact Or.inr hown
    · exact Or.inl hbefore
  · exact Or.inr hanswered

/-- A push answers all runs that it brings about, and marks its node if the kind is known. -/
theorem push (hroom : depth + room = p.config.maxDepth) (node : Node) (inputs : Inputs)
    (s : Pass σ) : Answers p s (push p room depth node inputs s) ∧
      ∀ d, p.catalogue.get? node.kind = some d →
        node.id ∈ (push p room depth node inputs s).executed := by
  -- The induction is on the room below the node: pushes behind it answer their own runs.
  refine level_induction (P := fun room depth => depth + room = p.config.maxDepth →
    ∀ node inputs s, Answers p s (Pass.push p room depth node inputs s) ∧
      ∀ d, p.catalogue.get? node.kind = some d →
        node.id ∈ (Pass.push p room depth node inputs s).executed) ?_
    room depth hroom node inputs s
  intro room depth hless hroom node inputs s
  cases hd : p.catalogue.get? node.kind with
  | none =>
    rw [push_of_unknown hd]
    exact ⟨of_pullSteps (.single (.told _ _ rfl)), fun d hd' => by cases hd'⟩
  | some d =>
    by_cases hmay : MayEnter d node s
    · rw [push_of_mayEnter hd hmay]
      cases houtputs : (s.enter d node depth inputs).1 with
      | none =>
        have hown : Answered p (s.enter d node depth inputs).2
            ⟨node, .pushed depth, inputs, (s.enter d node depth inputs).1⟩ := by
          rintro conn depth' target - - ⟨d', outputs, -, hnone, -⟩
          cases houtputs.symm.trans hnone
        rcases of_entered (refl _) hown with ⟨hanswers, hmarked⟩
        exact ⟨hanswers, fun _ _ => hmarked⟩
      | some outputs =>
        have hfollow : ∀ t conn,
            Answers p t (Pass.follow p (descent p room depth) depth d node outputs t conn) ∧
              ∀ target, isOpen d outputs conn.fromPort = true ∧
                  p.wiring.node? conn.toNode = some target →
                Answer p (Pass.follow p (descent p room depth) depth d node outputs t conn) node.id
                  conn depth target :=
          follow hroom fun less hroom' => hless less hroom' (by omega)
        rcases followAll hfollow (p.wiring.connectionsFrom node.id)
          ((s.enter d node depth inputs).2.note
            (.produced node.id node.kind outputs.values.size)) with ⟨hanswers, hfollowed⟩
        -- The run of the node itself is answered when all its connections have been followed.
        have hown : Answered p
            (Pass.followAll p room depth d node outputs (s.enter d node depth inputs).2)
            ⟨node, .pushed depth, inputs, (s.enter d node depth inputs).1⟩ := by
          rintro conn depth' target hcause hconn ⟨d', outputs', hd', houtputs', hcarries⟩ htarget
          obtain rfl : depth = depth' := Cause.pushed.inj hcause
          obtain rfl : d = d' := Option.some.inj (hd.symm.trans hd')
          obtain rfl : outputs = outputs' := Option.some.inj (houtputs.symm.trans houtputs')
          exact hfollowed conn hconn target ⟨isOpen_iff.2 hcarries, htarget⟩
        rcases of_entered ((of_pullSteps (.single (.told _ _ rfl))).trans hanswers) hown with
          ⟨hanswers, hmarked⟩
        exact ⟨hanswers, fun _ _ => hmarked⟩
    · rw [push_of_executed hd hmay]
      rw [MayEnter, not_or, Classical.not_not] at hmay
      exact ⟨refl s, fun _ _ => hmay.2⟩

theorem start (s : Pass σ) (id : NodeId) : Answers p s (start p s id) := by
  unfold Pass.start
  split
  · exact refl s
  · exact (push (Nat.zero_add _) _ _ s).1

end Answers

/-! ## Reasons -/

/-- A push at the given depth opened the connection, its target exists, and the depth limit is not
reached. -/
structure Leads (p : Plan σ) (calls : List Call) (conn : Connection) (depth : Nat) : Prop where
  opened : Opened p calls conn depth
  target : ∃ target, p.wiring.node? conn.toNode = some target
  depth : depth + 1 ≤ p.config.maxDepth

theorem Leads.mono {calls calls' : List Call} (h : Leads p calls conn depth)
    (hsub : calls ⊆ calls') : Leads p calls' conn depth :=
  ⟨h.opened.mono hsub, h.target, h.depth⟩

def Left (calls : List Call) (id : NodeId) (outputs : Option Outputs) : Prop :=
  ∃ call ∈ calls, call.node.id = id ∧ call.isPush = false ∧ call.outputs = outputs

theorem Left.mono {calls calls' : List Call} {id : NodeId} {outputs : Option Outputs}
    (h : Left calls id outputs) (hsub : calls ⊆ calls') : Left calls' id outputs := by
  rcases h with ⟨call, hcall, hrest⟩
  exact ⟨call, hsub hcall, hrest⟩

/-- All that was followed leads somewhere, and all that was kept or resolved was left by a pull. -/
structure Grounded (p : Plan σ) (s : Pass σ) : Prop where
  followed : ∀ conn depth, .followed conn depth ∈ s.events → Leads p s.calls conn depth
  kept : ∀ id outputs, s.pulled.get? id = some outputs → Left s.calls id outputs
  resolved : ∀ conn outputs, .resolved conn outputs ∈ s.events →
    Left s.calls conn.fromNode outputs

/-- Runs bring no such events by themselves. -/
theorem Grounded.call (h : Grounded p s) (d : Definition σ) (node : Node) (cause : Cause)
    (inputs : Inputs) : Grounded p (s.call d node cause inputs).2 := by
  have hsub : s.calls ⊆ (s.call d node cause inputs).2.calls := by
    rw [call_calls]
    exact List.subset_cons_self _ _
  constructor
  case followed =>
    intro conn depth hfollowed
    rw [call_events] at hfollowed
    exact (h.followed conn depth (by simpa using hfollowed)).mono hsub
  case kept =>
    intro id outputs hkept
    rw [call_pulled] at hkept
    exact (h.kept id outputs hkept).mono hsub
  case resolved =>
    intro conn outputs hresolved
    rw [call_events] at hresolved
    exact (h.resolved conn outputs (by simpa using hresolved)).mono hsub

/-- A pull leaves what it answers, now or when its result was kept. -/
theorem Grounded.pull (h : Grounded p s) (d : Definition σ) (source : Node) :
    Grounded p (pull p d source s).2 ∧
      Left (pull p d source s).2.calls source.id (pull p d source s).1 := by
  have hcall := h.call d source .pulled {}
  have hleft : Left (s.call d source .pulled {}).2.calls source.id
      (s.call d source .pulled {}).1 := by
    rw [call_calls]
    exact ⟨_, List.mem_cons_self, rfl, rfl, rfl⟩
  unfold Pass.pull
  split
  · split
    · -- An earlier pull left what is kept.
      rename_i outputs hkept
      exact ⟨h, h.kept _ _ hkept⟩
    · refine ⟨?_, hleft⟩
      constructor
      case followed => exact hcall.followed
      case resolved => exact hcall.resolved
      intro id outputs hkept
      rw [Table.get?_insert] at hkept
      split at hkept
      · rename_i hid
        cases hkept
        exact hid ▸ hleft
      · exact hcall.kept id outputs hkept
  · exact ⟨hcall, hleft⟩

/-- Each step of the walk leaves what it tells of grounded. -/
theorem walkInvariant_grounded (hkeyed : p.wiring.Keyed) : WalkInvariant p (Grounded p) := by
  constructor
  case noted =>
    intro s n _ hs
    refine ⟨fun conn depth hfollowed => ?_, hs.kept, fun conn outputs hresolved => ?_⟩
    · exact hs.followed conn depth (by simpa [note, record] using hfollowed)
    · exact hs.resolved conn outputs (by simpa [note, record] using hresolved)
  case entered =>
    intro s node d depth inputs _ _ _ hs
    have hmarked : Grounded p { s with executed := node.id :: s.executed } :=
      ⟨hs.followed, hs.kept, hs.resolved⟩
    exact hmarked.call d node (.pushed depth) inputs
  case resolved =>
    intro s target conn source d _ hsource _ _ hs
    rcases hs.pull d source with ⟨hpulled, hleft⟩
    refine ⟨fun conn' depth hfollowed => ?_, hpulled.kept, fun conn' outputs hresolved => ?_⟩
    · exact hpulled.followed conn' depth (by simpa [record] using hfollowed)
    · rcases List.mem_cons.1 hresolved with heq | hresolved
      · rw [Event.resolved.injEq] at heq
        rw [heq.1, heq.2, ← hkeyed _ _ hsource]
        exact hleft
      · exact hpulled.resolved conn' outputs hresolved
  case followed =>
    intro s conn depth hopened htarget hdepth hs
    refine ⟨fun conn' depth' hfollowed => ?_, hs.kept, fun conn' outputs hresolved => ?_⟩
    · rcases List.mem_cons.1 hfollowed with heq | hfollowed
      · rw [Event.followed.injEq] at heq
        rw [heq.1, heq.2]
        exact ⟨hopened, htarget, hdepth⟩
      · exact hs.followed conn' depth' hfollowed
    · exact hs.resolved conn' outputs (by simpa [record] using hresolved)

end Pass

/-! ## Passes -/

namespace Plan

variable {σ : Type} {p : Plan σ}

/-- What is preserved wherever the walk is holds at the end of a pass. -/
theorem invariant_of_places (hkeyed : p.wiring.Keyed) {F : Node → Inputs → Pass σ → Prop}
    {I : Pass σ → Prop} (h : Pass.PlaceInvariant p F I) (starts : List NodeId)
    (hstarts : ∀ id ∈ starts, ∀ node s, p.wiring.node? id = some node → F node {} s)
    {world : World σ} {memories : Table NodeId Slot} (hstart : I { world, memories }) :
    I (p.pass starts world memories) :=
  List.foldlRecOn starts (Pass.start p) hstart fun s hs id hid =>
    h.start hkeyed (fun node hnode => hstarts id hid node s hnode) hs

/-- An invariant of arrivals holds at the end of a pass if it held at its beginning. -/
theorem invariant_of_arrivals (hkeyed : p.wiring.Keyed) {I : Pass σ → Prop}
    (h : Pass.ArrivalInvariant p I) (starts : List NodeId) {world : World σ}
    {memories : Table NodeId Slot} (hstart : I { world, memories }) :
    I (p.pass starts world memories) :=
  invariant_of_places hkeyed h.places starts (fun _ _ node s _ => Pass.fed_empty p node s) hstart

/-- The same for an invariant of the walk. -/
theorem invariant_of_walk (hkeyed : p.wiring.Keyed) {I : Pass σ → Prop}
    (h : Pass.WalkInvariant p I) (starts : List NodeId) {world : World σ}
    {memories : Table NodeId Slot} (hstart : I { world, memories }) :
    I (p.pass starts world memories) :=
  invariant_of_arrivals hkeyed h.arrival starts hstart

/-- At the end of a pass all is grounded that was told in it. -/
theorem grounded_pass (hkeyed : p.wiring.Keyed) (starts : List NodeId) (world : World σ)
    (memories : Table NodeId Slot) : Pass.Grounded p (p.pass starts world memories) := by
  refine invariant_of_walk hkeyed (Pass.walkInvariant_grounded hkeyed) starts ?_
  constructor
  · exact fun _ _ h => absurd h List.not_mem_nil
  · intro _ _ h
    cases h
  · exact fun _ _ h => absurd h List.not_mem_nil

/-- When a pass is over, all connections that its pushes opened have been answered. -/
theorem answered_pass (starts : List NodeId) (world : World σ) (memories : Table NodeId Slot)
    {call : Call} (hcall : call ∈ (p.pass starts world memories).calls) :
    Pass.Answered p (p.pass starts world memories) call := by
  have hanswers : Pass.Answers p { world, memories } (p.pass starts world memories) :=
    List.foldlRecOn (motive := Pass.Answers p { world, memories }) starts (Pass.start p) (.refl _)
      fun s hs id _ => hs.trans (.start s id)
  rcases hanswers.answered call hcall with hbefore | hanswered
  · cases hbefore -- there were no runs before the pass
  · exact hanswered

/-- A connection is followed from some depth just if a push at that depth opened it, its target exists
and the depth limit is not reached. -/
theorem followed_iff_opened (hkeyed : p.wiring.Keyed) (starts : List NodeId) (world : World σ)
    (memories : Table NodeId Slot) (conn : Connection) (depth : Nat) :
    .followed conn depth ∈ (p.pass starts world memories).events ↔
      Pass.Leads p (p.pass starts world memories).calls conn depth := by
  constructor
  · exact (grounded_pass hkeyed starts world memories).followed conn depth
  · rintro ⟨⟨call, hcall, hcause, hconn, hopens⟩, ⟨target, htarget⟩, hdepth⟩
    exact (answered_pass starts world memories hcall conn depth target hcause hconn hopens
      htarget).followed hdepth

/-- What a connection is resolved with was left by a pull of its source. -/
theorem left_of_resolved (hkeyed : p.wiring.Keyed) {starts : List NodeId} {world : World σ}
    {memories : Table NodeId Slot} {conn : Connection} {outputs : Option Outputs}
    (h : .resolved conn outputs ∈ (p.pass starts world memories).events) :
    Pass.Left (p.pass starts world memories).calls conn.fromNode outputs :=
  (grounded_pass hkeyed starts world memories).resolved conn outputs h

end Plan

end GraphScript

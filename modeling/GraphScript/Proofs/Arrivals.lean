import GraphScript.Proofs.ExecutorRuns

/-!
# Arrivals — where connections lead in a pass

A run with outputs opens connections, and each open one arrives at its target, whether or not that
target may still run.  `Plan.arrivals` lists the arrivals of a pass in order, each with the state of
the pass before its connection is followed and the state when all that it leads to is over.

- `Pass.Primed` — what ran by a push was supplied before: its data sources were run in this pass;
- `Pass.walk_push` — every state of the walk is primed, and so are all arrivals;
- `Pass.reached_of_mem_arrivals` — so where a connection arrives, its target is pushed in a pass that was
  primed, unless the depth limit is reached.
-/

namespace GraphScript

variable {σ : Type}

/-- A connection is open and its target exists. -/
structure Arrival (σ : Type) where
  connection : Connection
  source : Node
  target : Node
  /-- The depth of the push that opened the connection. -/
  depth : Nat
  /-- The pass before the connection is followed. -/
  before : Pass σ
  /-- The pass when all that the connection leads to is over. -/
  after : Pass σ

/-- Has the target run by a push, and may it not run again? -/
def Arrival.repeats (x : Arrival σ) (c : Catalogue σ) : Bool :=
  (c.get? x.target.kind).any fun d => !d.frameTrigger && x.before.executed.contains x.target.id

/-- An arrival repeats just if its target is no frame trigger and was pushed before. -/
theorem Arrival.repeats_iff {x : Arrival σ} {c : Catalogue σ} : x.repeats c = true ↔
    ∃ d, c.get? x.target.kind = some d ∧ d.frameTrigger = false ∧
      x.target.id ∈ x.before.executed := by
  simp [repeats, Option.any_eq_true]

namespace Pass

/-! ## The arrivals of a pass -/

section Along

variable {α β γ : Type}

/-- What is seen along a fold, in each state at the item that comes next. -/
def along (step : β → α → β) (look : β → α → List γ) : β → List α → List γ
  | _, [] => []
  | b, a :: l => look b a ++ along step look (step b a) l

/-- What each round preserves holds at the end of a fold, and what each round shows holds of all that is
seen. -/
theorem along_invariant {I : β → Prop} {P : γ → Prop} {step : β → α → β} {look : β → α → List γ}
    {l : List α} {b : β} (hround : ∀ a ∈ l, ∀ b, I b → I (step b a) ∧ ∀ x ∈ look b a, P x)
    (hb : I b) : I (l.foldl step b) ∧ ∀ x ∈ along step look b l, P x := by
  induction l generalizing b with
  | nil => exact ⟨hb, fun _ hx => absurd hx List.not_mem_nil⟩
  | cons a l ih =>
    rcases hround a List.mem_cons_self b hb with ⟨hstep, hlook⟩
    rcases ih (fun a ha => hround a (List.mem_cons_of_mem _ ha)) hstep with ⟨hend, hrest⟩
    refine ⟨hend, fun x hx => ?_⟩
    rcases List.mem_append.1 hx with hx | hx
    · exact hlook x hx
    · exact hrest x hx

/-- Two folds stay in a relation, if each round does wherever something is known of what is seen. -/
theorem along_rel {β' : Type} {r : β → β' → Prop} {P : γ → Prop} {step : β → α → β}
    {step' : β' → α → β'} {look : β → α → List γ} {l : List α} {b : β} {b' : β'}
    (hround : ∀ a ∈ l, ∀ b b', r b b' → (∀ x ∈ look b a, P x) → r (step b a) (step' b' a))
    (hb : r b b') (hP : ∀ x ∈ along step look b l, P x) : r (l.foldl step b) (l.foldl step' b') := by
  induction l generalizing b b' with
  | nil => exact hb
  | cons a l ih =>
    have hfirst : r (step b a) (step' b' a) :=
      hround a List.mem_cons_self b b' hb fun x hx => hP x (List.mem_append_left _ hx)
    exact ih (fun a ha => hround a (List.mem_cons_of_mem _ ha)) hfirst
      fun x hx => hP x (List.mem_append_right _ hx)

end Along

def arrivalsAt (p : Plan σ) (descend : Option (Node → Inputs → Pass σ → Pass σ))
    (below : Node → Inputs → Pass σ → List (Arrival σ)) (depth : Nat) (d : Definition σ)
    (node : Node) (outputs : Outputs) (s : Pass σ) (conn : Connection) : List (Arrival σ) :=
  if isOpen d outputs conn.fromPort then
    match p.wiring.node? conn.toNode with
    | none => []
    | some target =>
      let (inputs, t) := assemble p target (s.record (.followed conn depth))
      ⟨conn, node, target, depth, s, follow p descend depth d node outputs s conn⟩ ::
        below target inputs t
  else []

def arrivalsBehind (p : Plan σ) (descend : Option (Node → Inputs → Pass σ → Pass σ))
    (below : Node → Inputs → Pass σ → List (Arrival σ)) (depth : Nat) (node : Node)
    (inputs : Inputs) (s : Pass σ) : List (Arrival σ) :=
  match p.catalogue.get? node.kind with
  | none => []
  | some d =>
    if ¬ d.frameTrigger ∧ node.id ∈ s.executed then []
    else
      let (outputs, s) := s.enter d node depth inputs
      match outputs with
      | none => []
      | some outputs =>
        along (follow p descend depth d node outputs) (arrivalsAt p descend below depth d node outputs)
          (s.note (.produced node.id node.kind outputs.values.size))
          (p.wiring.connectionsFrom node.id)

def arrivals (p : Plan σ) : (room depth : Nat) → Node → Inputs → Pass σ → List (Arrival σ)
  | 0, depth, node, inputs, s => arrivalsBehind p none (fun _ _ _ => []) depth node inputs s
  | room + 1, depth, node, inputs, s =>
    arrivalsBehind p (some (push p room (depth + 1))) (arrivals p room (depth + 1)) depth node
      inputs s

def startArrivals (p : Plan σ) (s : Pass σ) (id : NodeId) : List (Arrival σ) :=
  match p.wiring.node? id with
  | none => []
  | some node => arrivals p p.config.maxDepth 0 node {} s

end Pass

def Plan.arrivals (p : Plan σ) (startNodes : List NodeId) (world : World σ)
    (memories : Table NodeId Slot) : List (Arrival σ) :=
  Pass.along (Pass.start p) (Pass.startArrivals p) { world, memories } startNodes

namespace Pass

variable {p : Plan σ} {s t : Pass σ} {room depth : Nat} {node target : Node} {inputs : Inputs}
  {d : Definition σ} {outputs : Outputs} {conn : Connection}

def beneath (p : Plan σ) (room depth : Nat) : Node → Inputs → Pass σ → List (Arrival σ) :=
  match room with
  | 0 => fun _ _ _ => []
  | room + 1 => arrivals p room (depth + 1)

theorem arrivals_eq_behind (p : Plan σ) (room depth : Nat) :
    arrivals p room depth = arrivalsBehind p (descent p room depth) (beneath p room depth) depth := by
  cases room <;> rfl

theorem arrivals_of_unknown (h : p.catalogue.get? node.kind = none) :
    arrivals p room depth node inputs s = [] := by
  simp [arrivals_eq_behind, arrivalsBehind, h]

/-- A push that is skipped leads nowhere. -/
theorem arrivals_of_executed (hd : p.catalogue.get? node.kind = some d)
    (hmay : ¬ MayEnter d node s) : arrivals p room depth node inputs s = [] := by
  rw [MayEnter, not_or, Classical.not_not] at hmay
  simp [arrivals_eq_behind, arrivalsBehind, hd, hmay]

/-- Behind a push are the arrivals of the connections that its run opened, one after the other. -/
theorem arrivals_of_mayEnter (hd : p.catalogue.get? node.kind = some d) (hmay : MayEnter d node s) :
    arrivals p room depth node inputs s =
      match (s.enter d node depth inputs).1 with
      | none => []
      | some outputs =>
        along (follow p (descent p room depth) depth d node outputs)
          (arrivalsAt p (descent p room depth) (beneath p room depth) depth d node outputs)
          ((s.enter d node depth inputs).2.note (.produced node.id node.kind outputs.values.size))
          (p.wiring.connectionsFrom node.id) := by
  rw [arrivals_eq_behind, arrivalsBehind, hd]
  simp only [not_skipped_of_mayEnter hmay, if_false]

/-- An open connection to a known target is an arrival, and what the target leads to comes after it. -/
theorem arrivalsAt_of_open (hopen : isOpen d outputs conn.fromPort = true)
    (htarget : p.wiring.node? conn.toNode = some target) :
    arrivalsAt p (descent p room depth) (beneath p room depth) depth d node outputs s conn =
      ⟨conn, node, target, depth, s,
        follow p (descent p room depth) depth d node outputs s conn⟩ ::
        beneath p room depth target (assemble p target (s.record (.followed conn depth))).1
          (assemble p target (s.record (.followed conn depth))).2 := by
  simp only [arrivalsAt, hopen, if_true, htarget]

/-- At any other connection nothing arrives, and it is at most noted. -/
theorem arrivalsAt_of_not_open (room depth : Nat) (node : Node) (s : Pass σ)
    (h : ¬ (isOpen d outputs conn.fromPort = true ∧ p.wiring.node? conn.toNode ≠ none)) :
    arrivalsAt p (descent p room depth) (beneath p room depth) depth d node outputs s conn = [] ∧
      (follow p (descent p room depth) depth d node outputs s conn = s ∨
        ∃ n, (Event.noted n).isOwn = true ∧
          follow p (descent p room depth) depth d node outputs s conn = s.note n) := by
  by_cases hopen : isOpen d outputs conn.fromPort = true
  · have hnone : p.wiring.node? conn.toNode = none :=
      Classical.byContradiction fun hsome => h ⟨hopen, hsome⟩
    simp only [arrivalsAt, follow, hopen, if_true, hnone]
    exact ⟨trivial, Or.inr ⟨_, rfl, rfl⟩⟩
  · simp only [arrivalsAt, follow, hopen, Bool.false_eq_true, if_false]
    refine ⟨trivial, ?_⟩
    split
    · exact Or.inl rfl
    · exact Or.inr ⟨_, rfl, rfl⟩

end Pass

/-! ## Sources -/

/-- Does the policy keep what the kind leaves when it is pulled? -/
def Plan.Keeps (p : Plan σ) (d : Definition σ) : Prop :=
  p.config.pullPolicy = .memoizePerPass ∧ ¬ d.sideEffects = true

/-- The node is of the given kind, and one of its data outputs is wired into the target. -/
def Plan.Feeds (p : Plan σ) (source : Node) (d : Definition σ) (target : NodeId) : Prop :=
  ∃ conn ∈ p.wiring.connectionsTo target, p.wiring.node? conn.fromNode = some source ∧
    p.catalogue.get? source.kind = some d ∧ d.isControlOutput conn.fromPort = false

namespace Pass

variable {p : Plan σ} {s t : Pass σ} {room depth : Nat} {node target : Node} {inputs : Inputs}
  {d : Definition σ} {outputs : Outputs} {conn : Connection} {id : NodeId}

/-- What is kept is looked up, and nothing runs. -/
theorem pull_of_kept {source : Node} {outputs : Option Outputs} (hkeeps : p.Keeps d)
    (hkept : s.pulled.get? source.id = some outputs) : pull p d source s = (outputs, s) := by
  rw [pull, if_pos (show p.config.pullPolicy = _ ∧ _ from hkeeps), hkept]

/-- Where nothing is kept, every pull is a run. -/
theorem pull_of_not_keeps {source : Node} (hanew : ¬ p.Keeps d) :
    pull p d source s = s.call d source .pulled {} :=
  if_neg hanew

/-- What the source left is kept, or it ran and its memory has a place. -/
def Ran (p : Plan σ) (source : Node) (d : Definition σ) (s : Pass σ) : Prop :=
  (p.Keeps d → ∃ outputs, s.pulled.get? source.id = some outputs) ∧
    (¬ p.Keeps d → ∃ slot, s.memories.get? source.id = some slot)

/-- All sources of a node ran in this pass. -/
def Supplied (p : Plan σ) (id : NodeId) (s : Pass σ) : Prop :=
  ∀ source d, p.Feeds source d id → Ran p source d s

/-- Whatever was pushed is a frame trigger, or its sources ran before. -/
def Primed (p : Plan σ) (s : Pass σ) : Prop :=
  ∀ id ∈ s.executed, ∀ node d, p.wiring.node? id = some node →
    p.catalogue.get? node.kind = some d → d.frameTrigger = false → Supplied p id s

/-- The node is a frame trigger, or its sources ran before. -/
def Ready (p : Plan σ) (node : Node) (s : Pass σ) : Prop :=
  ∀ d, p.catalogue.get? node.kind = some d → d.frameTrigger = true ∨ Supplied p node.id s

theorem ready_of_trigger (hd : p.catalogue.get? node.kind = some d) (h : d.frameTrigger = true) :
    Ready p node s := by
  intro d' hd'
  obtain rfl : d = d' := Option.some.inj (hd.symm.trans hd')
  exact Or.inl h

/-! ### Nothing is forgotten -/

/-- That a source ran is not undone by later runs. -/
theorem Ran.call {source : Node} {d' : Definition σ} (h : Ran p source d' s) (d : Definition σ)
    (node : Node) (cause : Cause) (inputs : Inputs) :
    Ran p source d' (s.call d node cause inputs).2 := by
  refine ⟨by rw [call_pulled]; exact h.1, fun hanew => ?_⟩
  rw [call_memories, Table.get?_insert]
  split
  · exact ⟨_, rfl⟩
  · exact h.2 hanew

theorem Ran.pullSteps {source : Node} (h : Ran p source d s) (hsteps : PullSteps p s t) :
    Ran p source d t := by
  induction hsteps with
  | refl => exact h
  | tail _ hlast ih =>
    cases hlast with
    | told e he => exact ih
    | kept id outputs =>
      refine ⟨fun hkeeps => ?_, ih.2⟩
      rw [Table.get?_insert]
      split
      · exact ⟨_, rfl⟩
      · exact ih.1 hkeeps
    | pulled => exact ih.call _ _ _ _

/-- Nor is it undone by pulls for other targets. -/
theorem Supplied.pullSteps (h : Supplied p id s) (hsteps : PullSteps p s t) : Supplied p id t :=
  fun source d hfeeds => (h source d hfeeds).pullSteps hsteps

theorem Primed.pullSteps (h : Primed p s) (hsteps : PullSteps p s t) : Primed p t := by
  intro id hid node d hnode hd hplain
  rw [hsteps.executed_eq] at hid
  exact (h id hid node d hnode hd hplain).pullSteps hsteps

/-- Entering a node that is ready keeps the pass primed. -/
theorem Primed.enter (h : Primed p s) (hready : Ready p node s)
    (hnode : p.wiring.node? node.id = some node) (d : Definition σ) (depth : Nat)
    (inputs : Inputs) : Primed p (s.enter d node depth inputs).2 := by
  have hgrow : ∀ id, Supplied p id s → Supplied p id (s.enter d node depth inputs).2 := by
    intro id hid source d' hfeeds
    have hmarked : Ran p source d' { s with executed := node.id :: s.executed } :=
      hid source d' hfeeds
    exact hmarked.call d node (.pushed depth) inputs
  intro id hid node' d' hnode' hd' hplain
  rw [enter_executed, List.mem_cons] at hid
  rcases hid with rfl | hid
  · obtain rfl : node = node' := Option.some.inj (hnode.symm.trans hnode')
    rcases hready d' hd' with htrigger | hsupplied
    · cases hplain.symm.trans htrigger
    · exact hgrow _ hsupplied
  · exact hgrow id (h id hid node' d' hnode' hd' hplain)

/-! ### Sources run before their target -/

/-- A connection that delivers data runs its source, or finds what it left. -/
theorem ran_deliver {source : Node} (hsource : p.wiring.node? conn.fromNode = some source)
    (hd : p.catalogue.get? source.kind = some d)
    (hport : d.isControlOutput conn.fromPort = false) :
    Ran p source d (deliver p (inputs, s) conn).2 := by
  have hpulled : Ran p source d (pull p d source s).2 := by
    unfold pull
    split
    · rename_i hkeeps
      split
      · rename_i outputs hkept
        exact ⟨fun _ => ⟨outputs, hkept⟩, fun hanew => absurd hkeeps hanew⟩
      · refine ⟨fun _ => ⟨(s.call d source .pulled {}).1, ?_⟩, fun hanew => absurd hkeeps hanew⟩
        exact (Table.get?_insert _ _ _ _).trans (if_pos rfl)
    · rename_i hanew
      refine ⟨fun hkeeps => absurd hkeeps hanew, fun _ => ⟨(s.outcome d source {}).memory, ?_⟩⟩
      rw [call_memories, Table.get?_insert, if_pos rfl]
  simp only [deliver, hsource, hd, hport, Bool.false_eq_true, if_false]
  split <;> exact hpulled

/-- When the inputs of a node are assembled, its sources have run. -/
theorem supplied_assemble (p : Plan σ) (target : Node) (s : Pass σ) :
    Supplied p target.id (assemble p target s).2 := by
  have hfold : ∀ (conns : List Connection) (state : Inputs × Pass σ),
      conns ⊆ p.wiring.connectionsTo target.id → ∀ conn ∈ conns, ∀ source d,
      p.wiring.node? conn.fromNode = some source → p.catalogue.get? source.kind = some d →
      d.isControlOutput conn.fromPort = false →
      Ran p source d (conns.foldl (deliver p) state).2 := by
    intro conns
    induction conns with
    | nil => exact fun _ _ _ hconn => absurd hconn List.not_mem_nil
    | cons first conns ih =>
      intro state hsub conn hconn source d hsource hd hport
      rw [List.cons_subset] at hsub
      rcases List.mem_cons.1 hconn with rfl | hconn
      · -- The source runs now, and what follows are further pulls.
        have hrest : PullSteps p (deliver p state conn).2
            (conns.foldl (deliver p) (deliver p state conn)).2 := by
          refine List.foldlRecOn (motive := fun t => PullSteps p (deliver p state conn).2 t.2)
            conns (deliver p) .refl ?_
          intro t ht other hother
          exact ht.trans (pullSteps_deliver (hsub.2 hother) t)
        exact (ran_deliver hsource hd hport).pullSteps hrest
      · exact ih _ hsub.2 conn hconn source d hsource hd hport
  rintro source d ⟨conn, hconn, hsource, hd, hport⟩
  exact hfold _ ({}, s) (List.Subset.refl _) conn hconn source d hsource hd hport

end Pass

/-! ## The walk -/

/-- The arrival is one of a pass, which was primed before: behind its connection the target is pushed,
unless the depth limit is reached. -/
structure Arrival.Reached (p : Plan σ) (x : Arrival σ) : Prop where
  target : p.wiring.node? x.connection.toNode = some x.target
  primed : Pass.Primed p x.before
  after :
    x.after = x.before.note (.depthLimit p.config.maxDepth x.source.id x.target.id) ∨
      ∃ room, x.after = Pass.push p room (x.depth + 1) x.target
        (Pass.assemble p x.target (x.before.record (.followed x.connection x.depth))).1
        (Pass.assemble p x.target (x.before.record (.followed x.connection x.depth))).2

namespace Pass

variable {p : Plan σ} {s t : Pass σ} {room depth : Nat} {node target : Node} {inputs : Inputs}
  {d : Definition σ} {outputs : Outputs} {conn : Connection}

/-- What is known of a push from a state: it ends in a primed state, and all its arrivals are
reached. -/
def WalksWell (p : Plan σ) (room depth : Nat) (node : Node) (inputs : Inputs) (s : Pass σ) : Prop :=
  Primed p (push p room depth node inputs s) ∧
    ∀ x ∈ arrivals p room depth node inputs s, x.Reached p

/-- If pushes with less room go well, a connection is followed well. -/
theorem walk_follow (hkeyed : p.wiring.Keyed)
    (hless : ∀ less, room = less + 1 → ∀ target inputs s, p.wiring.node? target.id = some target →
      Ready p target s → Primed p s → WalksWell p less (depth + 1) target inputs s)
    (hs : Primed p s) :
    Primed p (follow p (descent p room depth) depth d node outputs s conn) ∧
      ∀ x ∈ arrivalsAt p (descent p room depth) (beneath p room depth) depth d node outputs s conn,
        x.Reached p := by
  by_cases hopen : isOpen d outputs conn.fromPort = true ∧ p.wiring.node? conn.toNode ≠ none
  · rcases hopen with ⟨hopen, hsome⟩
    rcases Option.ne_none_iff_exists'.1 hsome with ⟨target, htarget⟩
    rw [arrivalsAt_of_open hopen htarget]
    cases room with
    | zero =>
      have hlimit : follow p (descent p 0 depth) depth d node outputs s conn =
          s.note (.depthLimit p.config.maxDepth node.id target.id) := by
        simp only [follow, hopen, if_true, htarget, descent]
      refine ⟨?_, ?_⟩
      · rw [hlimit]
        exact hs
      · intro x hx
        rcases List.mem_cons.1 hx with rfl | hx
        · exact ⟨htarget, hs, Or.inl hlimit⟩
        · cases hx
    | succ less =>
      rw [follow_of_open hopen htarget]
      have hpulled : PullSteps p s (assemble p target (s.record (.followed conn depth))).2 :=
        pullSteps_arrive conn depth target
      have hid : target.id = conn.toNode := hkeyed _ _ htarget
      -- All that feeds the target has just been pulled.
      have hready : Ready p target (assemble p target (s.record (.followed conn depth))).2 :=
        fun _ _ => Or.inr (supplied_assemble p target _)
      rcases hless less rfl target _ _ (hid ▸ htarget) hready (hs.pullSteps hpulled) with
        ⟨hend, hbelow⟩
      refine ⟨hend, ?_⟩
      intro x hx
      rcases List.mem_cons.1 hx with rfl | hx
      · exact ⟨htarget, hs, Or.inr ⟨less, rfl⟩⟩
      · exact hbelow x hx
  · rcases arrivalsAt_of_not_open room depth node s hopen with
      ⟨hnone, hsame | ⟨n, -, hnote⟩⟩
    · rw [hnone, hsame]
      exact ⟨hs, fun _ hx => absurd hx List.not_mem_nil⟩
    · rw [hnone, hnote]
      exact ⟨hs, fun _ hx => absurd hx List.not_mem_nil⟩

/-- Pushes walk well. The induction is on the room below the depth limit, and inside it on the
connections. -/
theorem walk_push (hkeyed : p.wiring.Keyed) (hnode : p.wiring.node? node.id = some node)
    (hready : Ready p node s) (hs : Primed p s) : WalksWell p room depth node inputs s := by
  -- The induction is on the room below the node: targets are ready when their inputs are assembled.
  refine level_induction (P := fun room depth => ∀ node inputs s,
    p.wiring.node? node.id = some node → Ready p node s → Primed p s →
      WalksWell p room depth node inputs s) ?_ room depth node inputs s hnode hready hs
  intro room depth hless node inputs s hnode hready hs
  unfold WalksWell
  cases hd : p.catalogue.get? node.kind with
  | none =>
    rw [push_of_unknown hd, arrivals_of_unknown hd]
    exact ⟨hs, fun _ hx => absurd hx List.not_mem_nil⟩
  | some d =>
    by_cases hmay : MayEnter d node s
    · have hentered := hs.enter hready hnode d depth inputs
      rw [push_of_mayEnter hd hmay, arrivals_of_mayEnter hd hmay]
      cases houtputs : (s.enter d node depth inputs).1 with
      | none => exact ⟨hentered, fun _ hx => absurd hx List.not_mem_nil⟩
      | some outputs =>
        exact along_invariant (fun conn _ t ht => walk_follow hkeyed hless ht) hentered
    · -- The node ran before, and by then its sources had run.
      rw [push_of_executed hd hmay, arrivals_of_executed hd hmay]
      exact ⟨hs, fun _ hx => absurd hx List.not_mem_nil⟩

/-- Following a connection reaches the arrivals at it, and those below it. -/
theorem reached_follow (hkeyed : p.wiring.Keyed) (room depth : Nat) (d : Definition σ) (node : Node)
    (outputs : Outputs) (conn : Connection) (hs : Primed p s) :
    Primed p (follow p (descent p room depth) depth d node outputs s conn) ∧
      ∀ x ∈ arrivalsAt p (descent p room depth) (beneath p room depth) depth d node outputs s conn,
        x.Reached p :=
  walk_follow hkeyed (fun _ _ _ _ _ htarget hready hs => walk_push hkeyed htarget hready hs) hs

/-- A start needs no sources, for it is a frame trigger. -/
theorem walk_start (hkeyed : p.wiring.Keyed) {id : NodeId}
    (htrigger : ∃ n d, p.wiring.node? id = some n ∧ p.catalogue.get? n.kind = some d ∧
      d.frameTrigger = true) (hs : Primed p s) :
    Primed p (start p s id) ∧ ∀ x ∈ startArrivals p s id, x.Reached p := by
  rcases htrigger with ⟨node, d, hnode, hd, htrigger⟩
  have hready : Ready p node s := ready_of_trigger hd htrigger
  have hid : node.id = id := hkeyed _ _ hnode
  simp only [start, startArrivals, hnode]
  exact walk_push hkeyed (hid ▸ hnode) hready hs

/-- Every arrival of a pass is reached in a primed state. -/
theorem reached_of_mem_arrivals (hkeyed : p.wiring.Keyed) {starts : List NodeId}
    (hstarts : ∀ id ∈ starts, ∃ n d, p.wiring.node? id = some n ∧
      p.catalogue.get? n.kind = some d ∧ d.frameTrigger = true) (world : World σ)
    (memories : Table NodeId Slot) : ∀ x ∈ p.arrivals starts world memories, x.Reached p := by
  have hprimed : Primed p { world, memories } := fun _ hid => absurd hid List.not_mem_nil
  exact (along_invariant (fun id hid s hs => walk_start hkeyed (hstarts id hid) hs) hprimed).2

end Pass

end GraphScript

import GraphScript.Pass
import Mathlib.Logic.Relation

/-!
# PassSteps — a pass as a sequence of single steps

A pass walks the graph by nested recursion.  For invariants the nesting does not matter, only what
one step can do and why it may be done:

- `Pass.Step` — one step: something is told, a pulled result is kept, a source is pulled through a
  data connection, a target is pushed through an open connection, or a start node is pushed;
- `Pass.steps_push_of_mayEnter` and `Plan.steps_pass` — a push and a whole pass are sequences of steps;
- `Pass.Steps.invariant` — what every step preserves, a pass preserves.

A push carries its reason: the run that opened the connection is already among the runs of the pass.
-/

namespace GraphScript

variable {σ : Type}

/-- The outputs hold what it takes to follow a connection from the port: any value where data
leaves, a truthy one where control flow leaves. -/
def Definition.Carries (d : Definition σ) (outputs : Outputs) (port : PortId) : Prop :=
  ∃ v, outputs.get? port = some v ∧ (d.isControlOutput port = true → v.isTruthy = true)

/-- The outputs of the run hold what it takes to follow a connection from the port. -/
def Call.Opens (call : Call) (c : Catalogue σ) (port : PortId) : Prop :=
  ∃ d outputs, c.get? call.node.kind = some d ∧ call.outputs = some outputs ∧
    d.Carries outputs port

def Call.isPush (call : Call) : Bool :=
  match call.cause with
  | .pushed _ => true
  | .pulled => false

/-- Every push is at some depth. -/
theorem Call.isPush_iff {call : Call} :
    call.isPush = true ↔ ∃ depth, call.cause = .pushed depth := by
  unfold isPush
  cases call.cause <;> simp

/-- Does the pass itself tell the event, and not a run of a node? -/
def Event.isOwn : Event → Bool
  | .called _ => false
  | .resolved .. | .followed .. => true
  | .noted n =>
    match n with
    | .kindMissing .. | .produced .. | .nothingToPush .. | .nothingToPull .. => true
    | .targetMissing .. | .depthLimit .. => true
    | _ => false

namespace Pass

theorem isOpen_iff {d : Definition σ} {outputs : Outputs} {port : PortId} :
    isOpen d outputs port = true ↔ d.Carries outputs port := by
  unfold isOpen Definition.Carries
  split
  · rename_i hcontrol
    simp [hcontrol, Option.any_eq_true]
  · rename_i hdata
    simp [hdata, Option.isSome_iff_exists]

/-! ## Runs in the state of a pass -/

def calls (s : Pass σ) : List Call := Event.calls s.events

def enter (s : Pass σ) (d : Definition σ) (node : Node) (depth : Nat) (inputs : Inputs) :
    Option Outputs × Pass σ :=
  ({ s with executed := node.id :: s.executed } : Pass σ).call d node (.pushed depth) inputs

theorem foldl_note (notes : List Note) (s : Pass σ) :
    notes.foldl note s = { s with events := (notes.map Event.noted).reverse ++ s.events } := by
  induction notes generalizing s with
  | nil => rfl
  | cons n notes ih => simp [ih, note, record]

theorem calls_record {s : Pass σ} {e : Event} (h : e.isOwn = true) :
    (s.record e).calls = s.calls := by
  cases e with
  | called call => cases h
  | _ => rfl

theorem calls_foldl_note (notes : List Note) (s : Pass σ) :
    (notes.foldl note s).calls = s.calls := by
  induction notes generalizing s with
  | nil => rfl
  | cons n notes ih => exact ih (s.note n)

section Call

variable (s : Pass σ) (d : Definition σ) (node : Node) (cause : Cause) (inputs : Inputs)

/-- What the definition makes of the activation with which a run of the node starts. -/
def outcome : Outcome σ := d.run ⟨s.world, inputs, node, (s.memories.get? node.id).getD none⟩

@[simp] theorem call_world :
    (s.call d node cause inputs).2.world = (s.outcome d node inputs).world := by
  simp [call, foldl_note, record, outcome]

@[simp] theorem call_memories :
    (s.call d node cause inputs).2.memories =
      s.memories.insert node.id (s.outcome d node inputs).memory := by
  simp [call, foldl_note, record, outcome]

@[simp] theorem call_executed : (s.call d node cause inputs).2.executed = s.executed := by
  simp [call, foldl_note, record]

@[simp] theorem call_pulled : (s.call d node cause inputs).2.pulled = s.pulled := by
  simp [call, foldl_note, record]

/-- A run is told behind what its node tells while it runs. -/
theorem call_events :
    (s.call d node cause inputs).2.events =
      .called ⟨node, cause, inputs, (s.outcome d node inputs).outputs⟩ ::
        (((s.outcome d node inputs).notes.map .noted).reverse ++ s.events) := by
  simp [call, foldl_note, record, outcome]

@[simp] theorem call_calls :
    (s.call d node cause inputs).2.calls =
      ⟨node, cause, inputs, (s.outcome d node inputs).outputs⟩ :: s.calls :=
  congrArg (List.cons _) (calls_foldl_note _ _)

@[simp] theorem enter_executed (depth : Nat) :
    (s.enter d node depth inputs).2.executed = node.id :: s.executed :=
  call_executed _ d node _ inputs

/-- A push is one more run, at its depth and with its inputs. -/
@[simp] theorem enter_calls (depth : Nat) :
    (s.enter d node depth inputs).2.calls =
      ⟨node, .pushed depth, inputs, (s.enter d node depth inputs).1⟩ :: s.calls :=
  call_calls _ d node _ inputs

theorem enter_world (depth : Nat) :
    (s.enter d node depth inputs).2.world = (s.outcome d node inputs).world :=
  call_world _ d node (.pushed depth) inputs

theorem enter_memories (depth : Nat) :
    (s.enter d node depth inputs).2.memories =
      s.memories.insert node.id (s.outcome d node inputs).memory :=
  call_memories _ d node (.pushed depth) inputs

end Call

/-! ## Steps -/

/-- One of the runs was a push at the given depth and opened the connection. -/
def Opened (p : Plan σ) (calls : List Call) (conn : Connection) (depth : Nat) : Prop :=
  ∃ call ∈ calls, call.cause = .pushed depth ∧
    conn ∈ p.wiring.connectionsFrom call.node.id ∧ call.Opens p.catalogue conn.fromPort

/-- Later runs close no connection. -/
theorem Opened.mono {p : Plan σ} {before after : List Call} {conn : Connection} {depth : Nat}
    (h : Opened p before conn depth) (hsub : before ⊆ after) : Opened p after conn depth := by
  rcases h with ⟨call, hmem, hrest⟩
  exact ⟨call, hsub hmem, hrest⟩

/-- A node of the kind may be pushed now: it was not pushed before, or is a frame trigger. -/
def MayEnter (d : Definition σ) (node : Node) (s : Pass σ) : Prop :=
  d.frameTrigger = true ∨ node.id ∉ s.executed

/-- The walk passes over a node that was pushed before, unless it is a frame trigger. -/
theorem not_skipped_of_mayEnter {d : Definition σ} {node : Node} {s : Pass σ}
    (hmay : MayEnter d node s) : ¬ (¬ d.frameTrigger = true ∧ node.id ∈ s.executed) := by
  rintro ⟨htrigger, hexecuted⟩
  rcases hmay with h | h
  · exact htrigger h
  · exact h hexecuted

/-- One step of pulling: something is told, a result is kept, or a source is run through a data
connection. -/
inductive PullStep (p : Plan σ) : Pass σ → Pass σ → Prop where
  | told (s : Pass σ) (e : Event) (h : e.isOwn = true) : PullStep p s (s.record e)
  | kept (s : Pass σ) (id : NodeId) (outputs : Option Outputs) :
      PullStep p s { s with pulled := s.pulled.insert id outputs }
  | pulled (s : Pass σ) {target : NodeId} {conn : Connection} {source : Node} {d : Definition σ}
      (hconn : conn ∈ p.wiring.connectionsTo target)
      (hsource : p.wiring.node? conn.fromNode = some source)
      (hd : p.catalogue.get? source.kind = some d)
      (hport : d.isControlOutput conn.fromPort = false) :
      PullStep p s (s.call d source .pulled {}).2

/-- One step of a pass in which the nodes of a list may be pushed without a connection. -/
inductive Step (p : Plan σ) (starts : List NodeId) : Pass σ → Pass σ → Prop where
  | pull {s t : Pass σ} (h : PullStep p s t) : Step p starts s t
  | pushed (s : Pass σ) {conn : Connection} {depth : Nat} {node : Node} {d : Definition σ}
      (inputs : Inputs) (hopen : Opened p s.calls conn depth)
      (hnode : p.wiring.node? conn.toNode = some node)
      (hd : p.catalogue.get? node.kind = some d) (hmay : MayEnter d node s)
      (hdepth : depth + 1 ≤ p.config.maxDepth) :
      Step p starts s (s.enter d node (depth + 1) inputs).2
  | started (s : Pass σ) {id : NodeId} {node : Node} {d : Definition σ} (hid : id ∈ starts)
      (hnode : p.wiring.node? id = some node) (hd : p.catalogue.get? node.kind = some d)
      (hmay : MayEnter d node s) :
      Step p starts s (s.enter d node 0 {}).2

abbrev PullSteps (p : Plan σ) : Pass σ → Pass σ → Prop := Relation.ReflTransGen (PullStep p)

abbrev Steps (p : Plan σ) (starts : List NodeId) : Pass σ → Pass σ → Prop :=
  Relation.ReflTransGen (Step p starts)

variable {p : Plan σ} {starts : List NodeId} {s t : Pass σ}

/-! ## What steps of pulling leave alone -/

namespace PullSteps

/-- Only pushes leave marks. -/
theorem executed_eq (h : PullSteps p s t) : t.executed = s.executed := by
  induction h with
  | refl => rfl
  | tail _ hlast ih =>
    rw [← ih]
    -- Neither a note nor a kept result is a mark, and a source is run without one.
    cases hlast with
    | told e he => rfl
    | kept id outputs => rfl
    | pulled => exact call_executed _ _ _ _ _

/-- All runs that pulling adds are pulls. -/
theorem isPush_eq_false (h : PullSteps p s t) {call : Call} (hcall : call ∈ t.calls) :
    call ∈ s.calls ∨ call.isPush = false := by
  induction h with
  | refl => exact Or.inl hcall
  | tail _ hlast ih =>
    cases hlast with
    | told e he =>
      rw [calls_record he] at hcall
      exact ih hcall
    | kept id outputs => exact ih hcall
    | pulled =>
      rw [call_calls, List.mem_cons] at hcall
      rcases hcall with rfl | hcall
      · exact Or.inr rfl
      · exact ih hcall

/-- Steps of pulling are steps of a pass, whichever nodes start it. -/
theorem steps (h : PullSteps p s t) : Steps p starts s t := by
  induction h with
  | refl => exact .refl
  | tail _ hlast ih => exact ih.tail (.pull hlast)

end PullSteps

/-! ## What steps preserve -/

theorem Step.calls_subset (h : Step p starts s t) : s.calls ⊆ t.calls := by
  cases h with
  | pull h =>
    cases h with
    | told e he => rw [calls_record he]; exact List.Subset.refl _
    | kept id outputs => exact List.Subset.refl _
    | pulled => rw [call_calls]; exact List.subset_cons_self _ _
  | pushed => rw [enter_calls]; exact List.subset_cons_self _ _
  | started => rw [enter_calls]; exact List.subset_cons_self _ _

namespace Steps

/-- What every step preserves holds after any number of steps. -/
theorem invariant {I : Pass σ → Prop} (h : Steps p starts s t)
    (hstep : ∀ s t, Step p starts s t → I s → I t) (hI : I s) : I t := by
  induction h with
  | refl => exact hI
  | tail _ hlast ih => exact hstep _ _ hlast ih

/-- So no run is ever taken back. -/
theorem calls_subset (h : Steps p starts s t) : s.calls ⊆ t.calls :=
  h.invariant (I := fun t => s.calls ⊆ t.calls) (fun _ _ hstep ih =>
    List.Subset.trans ih hstep.calls_subset) (List.Subset.refl _)

/-- A fold over a list takes steps, if each of its rounds does. A round may rely on the state at
the beginning, from which the fold came by steps. -/
theorem foldl {α : Type} {f : Pass σ → α → Pass σ} (l : List α) (s : Pass σ)
    (hround : ∀ a ∈ l, ∀ t, Steps p starts s t → Steps p starts t (f t a)) :
    Steps p starts s (l.foldl f s) := by
  induction l generalizing s with
  | nil => exact .refl
  | cons a l ih =>
    have hfirst : Steps p starts s (f s a) := hround a List.mem_cons_self s .refl
    -- What the later rounds rely on is reached from `s` through the first one.
    refine hfirst.trans (ih (f s a) ?_)
    intro a' ha' t ht
    exact hround a' (List.mem_cons_of_mem _ ha') t (hfirst.trans ht)

end Steps

/-! ## Pulling takes steps -/

/-- What the run of a source preserves, and keeping a result preserves, a pull of the source preserves. -/
theorem pull_invariant {I : Pass σ → Prop} {d : Definition σ} {source : Node} (hs : I s)
    (hcall : I (s.call d source .pulled {}).2)
    (hkept : ∀ (t : Pass σ) outputs, I t → I { t with pulled := t.pulled.insert source.id outputs }) :
    I (pull p d source s).2 := by
  unfold pull
  split
  · split
    · -- The source ran before in this pass, and is not run again.
      exact hs
    · exact hkept _ _ hcall
  · exact hcall

/-- A pull takes steps of pulling, if it goes through a data connection of its source. -/
theorem pullSteps_pull {target : NodeId} {conn : Connection} {source : Node} {d : Definition σ}
    (hconn : conn ∈ p.wiring.connectionsTo target)
    (hsource : p.wiring.node? conn.fromNode = some source)
    (hd : p.catalogue.get? source.kind = some d)
    (hport : d.isControlOutput conn.fromPort = false) :
    PullSteps p s (pull p d source s).2 := by
  have hcall : PullStep p s (s.call d source .pulled {}).2 := .pulled s hconn hsource hd hport
  exact pull_invariant .refl (.single hcall) fun _ _ ht => ht.tail (.kept _ _ _)

theorem pullSteps_deliver {target : NodeId} {conn : Connection}
    (hconn : conn ∈ p.wiring.connectionsTo target) (state : Inputs × Pass σ) :
    PullSteps p state.2 (deliver p state conn).2 := by
  rcases state with ⟨inputs, s⟩
  -- Only a data connection from a node of known kind delivers anything.
  cases hsource : p.wiring.node? conn.fromNode with
  | none => simp only [deliver, hsource]; exact .refl
  | some source =>
    cases hd : p.catalogue.get? source.kind with
    | none => simp only [deliver, hsource, hd]; exact .refl
    | some d =>
      cases hport : d.isControlOutput conn.fromPort with
      | true => simp only [deliver, hsource, hd, hport]; exact .refl
      | false =>
        have hresolved : PullSteps p s
            ((pull p d source s).2.record (.resolved conn (pull p d source s).1)) :=
          (pullSteps_pull hconn hsource hd hport).tail (.told _ _ rfl)
        simp only [deliver, hsource, hd, hport, Bool.false_eq_true, if_false]
        split
        · exact hresolved
        · exact hresolved.tail (.told _ _ rfl)

/-- Inputs are assembled by steps of pulling alone. -/
theorem pullSteps_assemble (target : Node) : PullSteps p s (assemble p target s).2 := by
  -- The induction needs to know that all connections still to come lead to the target.
  have hfold : ∀ (conns : List Connection) (state : Inputs × Pass σ),
      conns ⊆ p.wiring.connectionsTo target.id →
      PullSteps p state.2 (conns.foldl (deliver p) state).2 := by
    intro conns
    induction conns with
    | nil => exact fun _ _ => .refl
    | cons conn conns ih =>
      intro state hsub
      rw [List.cons_subset] at hsub
      exact (pullSteps_deliver hsub.1 state).trans (ih _ hsub.2)
  exact hfold _ ({}, s) (List.Subset.refl _)

/-- What happens between following a connection and pushing its target. -/
theorem pullSteps_arrive (conn : Connection) (depth : Nat) (target : Node) :
    PullSteps p s (assemble p target (s.record (.followed conn depth))).2 :=
  .head (.told _ _ rfl) (pullSteps_assemble target)

theorem steps_note {n : Note} (h : (Event.noted n).isOwn = true) : Steps p starts s (s.note n) :=
  .single (.pull (.told s _ h))

/-! ## Pushing takes steps -/

/-- How targets are pushed from a node with so much room below it. -/
def descent (p : Plan σ) (room depth : Nat) : Option (Node → Inputs → Pass σ → Pass σ) :=
  match room with
  | 0 => none
  | room + 1 => some (push p room (depth + 1))

theorem push_eq_visit (p : Plan σ) (room depth : Nat) :
    push p room depth = visit p (descent p room depth) depth := by
  cases room <;> rfl

/-- What holds of a level of the walk if it holds one level deeper holds of every level. -/
theorem level_induction {P : Nat → Nat → Prop}
    (hlevel : ∀ room depth, (∀ less, room = less + 1 → P less (depth + 1)) → P room depth)
    (room depth : Nat) : P room depth := by
  induction room generalizing depth with
  | zero => exact hlevel 0 depth fun less hless => absurd hless less.succ_ne_zero.symm
  | succ room ih =>
    refine hlevel (room + 1) depth fun less hless => ?_
    obtain rfl : room = less := Nat.succ.inj hless
    exact ih (depth + 1)

/-- All that happens behind a run with outputs. -/
def followAll (p : Plan σ) (room depth : Nat) (d : Definition σ) (node : Node) (outputs : Outputs)
    (s : Pass σ) : Pass σ :=
  (p.wiring.connectionsFrom node.id).foldl
    (follow p (descent p room depth) depth d node outputs)
    (s.note (.produced node.id node.kind outputs.values.size))

section Push

variable {room depth : Nat} {node : Node} {inputs : Inputs} {d : Definition σ}

theorem push_of_unknown (h : p.catalogue.get? node.kind = none) :
    push p room depth node inputs s = s.note (.kindMissing node.kind node.id) := by
  simp [push_eq_visit, visit, h]

/-- A node that may not be entered is passed over. -/
theorem push_of_executed (hd : p.catalogue.get? node.kind = some d) (hmay : ¬ MayEnter d node s) :
    push p room depth node inputs s = s := by
  rw [MayEnter, not_or, Classical.not_not] at hmay
  simp [push_eq_visit, visit, hd, hmay]

/-- A node that may be entered is, and what follows is behind its outputs. -/
theorem push_of_mayEnter (hd : p.catalogue.get? node.kind = some d) (hmay : MayEnter d node s) :
    push p room depth node inputs s =
      match (s.enter d node depth inputs).1 with
      | none => (s.enter d node depth inputs).2
      | some outputs => followAll p room depth d node outputs (s.enter d node depth inputs).2 := by
  rw [push_eq_visit, visit, hd]
  simp only [not_skipped_of_mayEnter hmay, if_false]
  rfl

end Push

section Follow

variable {room depth : Nat} {node target : Node} {d : Definition σ} {outputs : Outputs}
  {conn : Connection}

/-- An open connection to a node of the graph leads to a push, if there is room for it. -/
theorem follow_of_open (hopen : isOpen d outputs conn.fromPort = true)
    (htarget : p.wiring.node? conn.toNode = some target) :
    follow p (descent p (room + 1) depth) depth d node outputs s conn =
      push p room (depth + 1) target (assemble p target (s.record (.followed conn depth))).1
        (assemble p target (s.record (.followed conn depth))).2 := by
  simp only [follow, hopen, if_true, htarget, descent]

/-- Any other connection is at most noted. -/
theorem pullSteps_follow (h : isOpen d outputs conn.fromPort = true →
      p.wiring.node? conn.toNode ≠ none → room = 0) :
    PullSteps p s (follow p (descent p room depth) depth d node outputs s conn) := by
  have hnote : ∀ n : Note, (Event.noted n).isOwn = true → PullSteps p s (s.note n) :=
    fun n hn => .single (.told s _ hn)
  unfold follow
  split
  · rename_i hopen
    split
    · exact hnote _ rfl
    · rename_i target htarget
      rw [h hopen (by rw [htarget]; exact Option.some_ne_none target)]
      exact hnote _ rfl
  · split
    · exact .refl
    · exact hnote _ rfl

end Follow

/-- Once a node is entered, the rest of its push takes steps, none of which starts a node. -/
theorem steps_push_of_mayEnter {room depth : Nat} (hroom : depth + room = p.config.maxDepth)
    {node : Node} {inputs : Inputs} {d : Definition σ} (s : Pass σ)
    (hd : p.catalogue.get? node.kind = some d) (hmay : MayEnter d node s) :
    Steps p starts (s.enter d node depth inputs).2 (push p room depth node inputs s) := by
  induction room generalizing depth node inputs d s with
  | zero =>
    -- At the depth limit connections are looked at, but none is followed.
    rw [push_of_mayEnter hd hmay]
    split
    · exact .refl
    · refine (steps_note rfl).trans (Steps.foldl _ _ ?_)
      intro conn _ t _
      exact (pullSteps_follow (fun _ _ => rfl)).steps
  | succ room ih =>
    rw [push_of_mayEnter hd hmay]
    split
    · exact .refl
    · rename_i outputs houtputs
      refine (steps_note rfl).trans (Steps.foldl _ _ ?_)
      intro conn hconn t ht
      by_cases hopen : isOpen d outputs conn.fromPort = true
      · cases htarget : p.wiring.node? conn.toNode with
        | none => exact (pullSteps_follow (fun _ h => absurd htarget h)).steps
        | some target =>
          rw [follow_of_open hopen htarget]
          have hpulled : Steps p starts t (assemble p target (t.record (.followed conn depth))).2 :=
            (pullSteps_arrive conn depth target).steps
          -- The run of `node` is still among the runs, so its connection is open for a push.
          have hopened : Opened p
              (assemble p target (t.record (.followed conn depth))).2.calls conn depth := by
            have hfirst : Opened p (s.enter d node depth inputs).2.calls conn depth :=
              ⟨_, by rw [enter_calls]; exact List.mem_cons_self, rfl, hconn, d, outputs, hd,
                houtputs, isOpen_iff.1 hopen⟩
            exact hfirst.mono fun _ hcall => hpulled.calls_subset (Steps.calls_subset ht hcall)
          refine hpulled.trans ?_
          generalize assemble p target (t.record (.followed conn depth)) = u at hopened ⊢
          -- The target is entered, unless its kind is unknown or it was pushed before.
          cases hd' : p.catalogue.get? target.kind with
          | none =>
            rw [push_of_unknown hd']
            exact steps_note rfl
          | some d' =>
            by_cases hmay' : MayEnter d' target u.2
            · have henter : Step p starts u.2 (u.2.enter d' target (depth + 1) u.1).2 :=
                .pushed u.2 u.1 hopened htarget hd' hmay' (by omega)
              exact .head henter (ih (by omega) u.2 hd' hmay')
            · rw [push_of_executed hd' hmay']
      · exact (pullSteps_follow (fun h => absurd h hopen)).steps

/-- A start takes steps, if its node is among those that start the pass. -/
theorem steps_start {id : NodeId} (hid : id ∈ starts) : Steps p starts s (start p s id) := by
  unfold start
  split
  · exact .refl
  · rename_i node hnode
    cases hd : p.catalogue.get? node.kind with
    | none =>
      rw [push_of_unknown hd]
      exact steps_note rfl
    | some d =>
      by_cases hmay : MayEnter d node s
      · exact .head (.started s hid hnode hd hmay)
          (steps_push_of_mayEnter (Nat.zero_add _) s hd hmay)
      · rw [push_of_executed hd hmay]

end Pass

/-- A pass takes steps from the world and the memories with which it begins. -/
theorem Plan.steps_pass (p : Plan σ) (starts : List NodeId) (world : World σ)
    (memories : Table NodeId Slot) :
    Pass.Steps p starts { world, memories } (p.pass starts world memories) :=
  Pass.Steps.foldl starts _ (fun _ hid _ _ => Pass.steps_start hid)

section Calls

variable {p : Plan σ} {I : Pass σ → Prop}
  (htold : ∀ s e, e.isOwn = true → I s → I (s.record e))
  (hkept : ∀ s id outputs, I s → I { s with pulled := s.pulled.insert id outputs })
  (hmarked : ∀ s id, I s → I { s with executed := id :: s.executed })
  (hcall : ∀ s id node d cause inputs, p.wiring.node? id = some node →
    p.catalogue.get? node.kind = some d → I s → I (s.call d node cause inputs).2)

include htold hkept hmarked hcall

/-- What the notes of a pass, kept results, marks and runs of nodes of known kinds preserve, any number
of steps preserves. -/
theorem Pass.Steps.invariant_of_calls {starts : List NodeId} {s t : Pass σ}
    (h : Pass.Steps p starts s t) (hs : I s) : I t := by
  refine h.invariant ?_ hs
  intro s t hstep hs
  -- A push is a mark and a run, a pull is a run alone.
  cases hstep with
  | pull h =>
    cases h with
    | told e he => exact htold s e he hs
    | kept id outputs => exact hkept s id outputs hs
    | pulled _ hnode hd _ => exact hcall s _ _ _ _ _ hnode hd hs
  | pushed inputs _ hnode hd _ _ => exact hcall _ _ _ _ _ _ hnode hd (hmarked s _ hs)
  | started _ hnode hd _ => exact hcall _ _ _ _ _ _ hnode hd (hmarked s _ hs)

/-- What holds at the start of a pass and is preserved by its own notes, by kept results, by marks and
by runs of nodes of known kinds holds at its end. -/
theorem Plan.invariant_of_calls (starts : List NodeId) {world : World σ}
    {memories : Table NodeId Slot} (hstart : I { world, memories }) :
    I (p.pass starts world memories) :=
  (p.steps_pass starts world memories).invariant_of_calls htold hkept hmarked hcall hstart

end Calls

theorem Plan.invariant_pass {p : Plan σ} {I : Pass σ → Prop}
    (htold : ∀ s e, e.isOwn = true → I s → I (s.record e))
    (hkept : ∀ s id outputs, I s → I { s with pulled := s.pulled.insert id outputs })
    (hmarked : ∀ s id, I s → I { s with executed := id :: s.executed })
    (hcall : ∀ s d node cause inputs, p.catalogue.get? node.kind = some d → I s →
      I (s.call d node cause inputs).2)
    (starts : List NodeId) {world : World σ} {memories : Table NodeId Slot}
    (hstart : I { world, memories }) : I (p.pass starts world memories) :=
  p.invariant_of_calls htold hkept hmarked
    (fun s _ node d cause inputs _ => hcall s d node cause inputs) starts hstart

/-- What every run of a known kind preserves in the world, any number of steps preserves. -/
theorem Pass.Steps.world {p : Plan σ} {P : World σ → Prop}
    (hrun : ∀ kind d, p.catalogue.get? kind = some d → ∀ a, P a.world → P (d.run a).world)
    {starts : List NodeId} {s t : Pass σ} (h : Pass.Steps p starts s t) (hs : P s.world) :
    P t.world := by
  refine h.invariant_of_calls (I := fun s => P s.world) (fun _ _ _ hs => hs) (fun _ _ _ hs => hs)
    (fun _ _ hs => hs) ?_ hs
  intro s id node d cause inputs _ hd hs
  rw [Pass.call_world]
  exact hrun node.kind d hd _ hs

/-- What every run of a known kind preserves in the world, a pass preserves. -/
theorem Plan.pass_world {p : Plan σ} {P : World σ → Prop}
    (hrun : ∀ kind d, p.catalogue.get? kind = some d → ∀ a, P a.world → P (d.run a).world)
    {starts : List NodeId} {world : World σ} {memories : Table NodeId Slot} (hworld : P world) :
    P (p.pass starts world memories).world :=
  (p.steps_pass starts world memories).world hrun hworld

end GraphScript

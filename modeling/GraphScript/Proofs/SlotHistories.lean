import GraphScript.Proofs.ExecutorRuns
import GraphScript.Proofs.TypedRuns
import Mathlib.Data.List.Induction

/-!
# SlotHistories — what nodes remember, and since when

The memory of a node is a matter between the node and itself.  What is in its slot between passes is what
its own runs made of an empty slot, since the executor was made or reset.

- `Catalogue.Replays` — runs with the activations they came of, each in the world that the one before it
  left; `Executor.History` — all activations since the last reset, over any passes and resets;
- `Definition.Remembers` — what the runs of one node leave in its slot;
- `Slots` — what a table of slots holds after such a history, and `Slots.call`, one run later;
- `Executor.slots_after` — between any passes and resets the slots are as their history has left them.
-/

namespace GraphScript

variable {σ : Type}

/-! ## Histories -/

/-- Runs with the activations they came of, in order.  They begin in the first world and end in the second
one, and each of them finds the world that the one before it left. -/
inductive Catalogue.Replays (c : Catalogue σ) (world : World σ) :
    List Call → List (Activation σ) → World σ → Prop where
  | nil : Replays c world [] [] world
  | run {calls : List Call} {activations : List (Activation σ)} {a : Activation σ} {d : Definition σ}
      (h : Replays c world calls activations a.world) (hd : c.get? a.node.kind = some d)
      (cause : Cause) :
      Replays c world (calls ++ [⟨a.node, cause, a.inputs, (d.run a).outputs⟩]) (activations ++ [a])
        (d.run a).world

/-- What the runs of one node leave in its slot: the first one finds it empty, each later one finds what
the one before it left. -/
inductive Definition.Remembers (d : Definition σ) : List (Activation σ) → Slot → Prop where
  | nil : Remembers d [] none
  | run {activations : List (Activation σ)} {a : Activation σ}
      (h : Remembers d activations a.memory) : Remembers d (activations ++ [a]) (d.run a).memory

/-- The activations of an executor since it was made or last reset, after any passes and resets. -/
inductive Executor.History (e : Executor σ) : List (Turn σ) → List (Activation σ) → Prop where
  | nil : History e [] []
  | pass {turns : List (Turn σ)} {past activations : List (Activation σ)} {world : World σ}
      (h : History e turns past)
      (hruns : e.plan.catalogue.Replays world ((e.after turns).runs world) activations
        ((e.after turns).execute world).2.1) :
      History e (turns ++ [.pass world]) (past ++ activations)
  | reset {turns : List (Turn σ)} {past : List (Activation σ)} (h : History e turns past) :
      History e (turns ++ [.reset]) []

/-- The slots of a graph after some activations.

- Only nodes that come first under their ids are activated, and only those whose kind is known.
- There is a slot for a node just if it was activated.
- In the slot is what the runs of the node itself have left there. -/
structure Slots (g : Graph) (c : Catalogue σ) (activations : List (Activation σ))
    (memories : Table NodeId Slot) : Prop where
  known : ∀ a ∈ activations, g.node? a.node.id = some a.node ∧ ∃ d, c.get? a.node.kind = some d
  lazy : ∀ id, memories.contains id = true ↔ ∃ a ∈ activations, a.node.id = id
  own : ∀ id slot, memories.get? id = some slot → ∃ d, g.definition? c id = some d ∧
    d.Remembers (activations.filter (·.node.id = id)) slot

/-! ## One more run -/

namespace Slots

variable {g : Graph} {c : Catalogue σ} {activations : List (Activation σ)}
  {memories : Table NodeId Slot} {node : Node} {d : Definition σ}

theorem empty (g : Graph) (c : Catalogue σ) : Slots g c [] ∅ where
  known := by simp
  lazy := by simp [Table.contains]
  own := by simp

/-- A node finds in its slot what its own runs have left there, or else an empty slot. -/
theorem found (h : Slots g c activations memories) (hnode : g.node? node.id = some node)
    (hd : c.get? node.kind = some d) :
    d.Remembers (activations.filter (·.node.id = node.id)) ((memories.get? node.id).getD none) := by
  cases hslot : memories.get? node.id with
  | some slot =>
    rcases h.own node.id slot hslot with ⟨d', hd', hown⟩
    obtain rfl : d = d' :=
      Option.some.inj ((Graph.definition?_eq_some_iff.2 ⟨node, hnode, hd⟩).symm.trans hd')
    exact hown
  | none =>
    -- Without a slot the node was never activated.
    have hnone : activations.filter (·.node.id = node.id) = [] := by
      refine List.filter_eq_nil_iff.2 ?_
      intro a ha hid
      have hslot' := (h.lazy node.id).2 ⟨a, ha, by simpa using hid⟩
      simp [Table.contains, hslot] at hslot'
    rw [hnone]
    exact .nil

/-- A run makes a slot for its node, leaves its memory there, and touches no other slot. -/
theorem call (h : Slots g c activations memories) (hnode : g.node? node.id = some node)
    (hd : c.get? node.kind = some d) (world : World σ) (inputs : Inputs) :
    let a : Activation σ := ⟨world, inputs, node, (memories.get? node.id).getD none⟩
    Slots g c (activations ++ [a]) (memories.insert node.id (d.run a).memory) := by
  intro a
  constructor
  case known =>
    intro b hb
    rcases List.mem_append.1 hb with hb | hb
    · exact h.known b hb
    · obtain rfl : b = a := List.mem_singleton.1 hb
      exact ⟨hnode, d, hd⟩
  case lazy =>
    intro id
    have hbefore := h.lazy id
    by_cases hid : node.id = id
    · -- The slot is there now, whether or not it was before.
      simp [Table.contains, Table.get?_insert, hid, a]
    · simpa [Table.contains, Table.get?_insert, hid, a, or_and_right, exists_or] using hbefore
  case own =>
    intro id slot hslot
    rw [Table.get?_insert] at hslot
    split at hslot
    · rename_i hid
      subst hid
      obtain rfl : (d.run a).memory = slot := Option.some.inj hslot
      refine ⟨d, Graph.definition?_eq_some_iff.2 ⟨node, hnode, hd⟩, ?_⟩
      have hown : (activations ++ [a]).filter (·.node.id = node.id) =
          activations.filter (·.node.id = node.id) ++ [a] := by simp [a]
      rw [hown]
      exact .run (h.found hnode hd)
    · -- The activation is not one of this node.
      rename_i hid
      have hown : (activations ++ [a]).filter (·.node.id = id) =
          activations.filter (·.node.id = id) := by simp [a, hid]
      rw [hown]
      exact h.own id slot hslot

end Slots

/-! ## One more pass -/

/-- A pass carries the slots on: its runs come of activations, and the slots at its end are those after
these activations.  Nothing but a run touches a slot. -/
theorem Pass.exists_replay (g : Graph) (c : Catalogue σ) (config : ExecutorConfig)
    {past : List (Activation σ)} {memories : Table NodeId Slot} (hpast : Slots g c past memories)
    (world : World σ) :
    let s := Executor.passEnd g c config world memories
    ∃ activations, c.Replays world s.calls.reverse activations s.world ∧
      Slots g c (past ++ activations) s.memories := by
  refine (g.plan c config).invariant_of_calls
    (I := fun s => ∃ activations, c.Replays world s.calls.reverse activations s.world ∧
      Slots g c (past ++ activations) s.memories) ?_ (fun _ _ _ hs => hs) (fun _ _ hs => hs) ?_ _
    ⟨[], .nil, by simpa using hpast⟩
  · intro s e he hs
    rw [Pass.calls_record he]
    exact hs
  · rintro s id node d cause inputs hnode hd ⟨activations, hreplays, hslots⟩
    rw [Wiring.node?_ofGraph] at hnode
    have hid : g.node? node.id = some node := (Graph.id_of_node? hnode).symm ▸ hnode
    let a : Activation σ := ⟨s.world, inputs, node, (s.memories.get? node.id).getD none⟩
    -- The run is appended to the log, and its memory is the only one that changes.
    refine ⟨activations ++ [a], ?_, ?_⟩
    · simpa [Pass.outcome, a] using Catalogue.Replays.run (a := a) hreplays hd cause
    · simpa [Pass.outcome, a] using hslots.call hid hd s.world inputs

/-! ## Passes and resets -/

namespace Executor

/-- Turns change nothing that a reset does not set back. -/
theorem reset_after (e : Executor σ) (turns : List (Turn σ)) : (e.after turns).reset = e.reset := by
  induction turns generalizing e with
  | nil => rfl
  | cons t turns ih =>
    have hturn : (e.turn t).reset = e.reset := by cases t <;> rfl
    exact (ih (e.turn t)).trans hturn

/-- Any passes and resets have a history, and the slots are as it has left them. -/
theorem exists_history (g : Graph) (c : Catalogue σ) (config : ExecutorConfig)
    (turns : List (Turn σ)) :
    ∃ activations, History (ofGraph g c config).1 turns activations ∧
      Slots g c activations ((ofGraph g c config).1.after turns).memories := by
  induction turns using List.reverseRecOn with
  | nil => exact ⟨[], .nil, .empty g c⟩
  | append_singleton turns turn ih =>
    rcases ih with ⟨past, hhistory, hslots⟩
    cases turn with
    | reset =>
      -- The history begins anew.
      refine ⟨[], .reset hhistory, ?_⟩
      rw [after, List.foldl_concat]
      exact .empty g c
    | pass world =>
      rcases Pass.exists_replay g c config hslots world with ⟨activations, hreplays, hslots⟩
      refine ⟨past ++ activations, .pass hhistory ?_, ?_⟩
      · rw [runs_after, execute_eq ((ofGraph g c config).1.after_plan turns)]
        exact hreplays
      · rw [memories_after_pass]
        exact hslots

/-- After any passes and resets there is a slot for a node just if the node, the first one under its id
and of a known kind, ran since the last reset, and in its slot is what its own runs have left there.  A
reset empties all slots and the count of passes, and leaves alone everything else.  So the executor is
again as it was made.  The world is not handed to a reset, and nothing happens but a note. -/
theorem slots_after (g : Graph) (c : Catalogue σ) (config : ExecutorConfig) (turns : List (Turn σ)) :
    let e := (ofGraph g c config).1
    (∃ activations, History e turns activations ∧ Slots g c activations (e.after turns).memories) ∧
      e.after (turns ++ [.reset]) = { e.after turns with memories := ∅, frame := 0 } ∧
      (e.after turns).reset = (e, [.executorReset]) := by
  intro e
  refine ⟨exists_history g c config turns, ?_, reset_after e turns⟩
  rw [after, List.foldl_concat]
  rfl

/-- In two passes of the relay its reader is only pulled, and has a slot as the others have.  A reset
takes them all away. -/
theorem slots_after_relay :
    let c : Catalogue HeadlessScene := .standard
    let world : World HeadlessScene := .ofHost {} ⟨fun _ => "", 0⟩
    let e := (ofGraph Graph.relay c {}).1
    let twice : List (Turn HeadlessScene) := [.pass world, .pass world]
    (e.runs world).map (fun call => (call.node.id, call.isPush)) =
        [("start", true), ("read", false), ("write", true)] ∧
      (∃ activations, History e twice activations ∧
        Slots Graph.relay c activations (e.after twice).memories ∧
        ∃ a ∈ activations, a.node.id = "read") ∧
      (e.after twice).memories.get? "start" = some (Slot.set (Started.mk true)) ∧
      (e.after (twice ++ [.reset])).memories.contains "start" = false := by
  intro c world e twice
  rcases slots_after Graph.relay c {} twice with ⟨⟨activations, hhistory, hslots⟩, hreset, -⟩
  have hread : (e.after twice).memories.contains "read" = true := by decide
  refine ⟨by decide, ⟨activations, hhistory, hslots, (hslots.lazy "read").1 hread⟩, by decide, ?_⟩
  rw [hreset]
  rfl

end Executor

end GraphScript

import GraphScript.Proofs.ConnectionEvents
import GraphScript.Proofs.Coverage
import GraphScript.Proofs.StandardKinds

/-!
# RaisedLimits — what a higher depth limit may cost

A node is pushed once, at the depth at which the walk comes to it first.  Under a higher limit the walk
goes deeper before it turns back, and may come to a node late that it came to early under the lower limit.
If it comes to it at the limit itself, what lies behind the node is cut off, and lost for the whole pass.

- `Graph.Missed` — how a node is lost: cut off behind such a node, or behind another node that is lost;
- `Pass.Complete.pushed_or_limited` — a connection that a push opened leads to a push, or the push was at the
  limit and this is told;
- `Executor.raisedLimit` — where outputs are fixed, no other nodes are lost; so none is if nothing is cut
  off for good;
- `Executor.raised_limit_loses` — a node that three levels lose, and two do not.
-/

namespace GraphScript

variable {σ : Type}

/-! ## Fixed outputs -/

/-- What a node of the kind leaves depends on the node alone. -/
def Definition.Fixed (d : Definition σ) : Prop :=
  ∀ a b : Activation σ, a.node = b.node → (d.run a).outputs = (d.run b).outputs

/-- What a node leaves depends on the node alone, whatever its kind is. -/
def Catalogue.Fixed (c : Catalogue σ) : Prop := ∀ kind d, c.get? kind = some d → d.Fixed

/-- Where outputs are fixed, all runs of a node open the same connections. -/
theorem Call.Opens.of_fixed {c : Catalogue σ} (hfixed : c.Fixed) {call call' : Call}
    (h : call.Genuine c) (h' : call'.Genuine c) (hnode : call'.node = call.node) {port : PortId}
    (hopens : call.Opens c port) : call'.Opens c port := by
  rcases h with ⟨d, a, hd, ha, -, houtputs⟩
  rcases h' with ⟨d', a', hd', ha', -, houtputs'⟩
  rcases hopens with ⟨d'', outputs, hd'', hsome, hcarries⟩
  obtain rfl : d = d' := Option.some.inj (hd.symm.trans (hnode ▸ hd'))
  obtain rfl : d = d'' := Option.some.inj (hd.symm.trans hd'')
  refine ⟨d, outputs, hd', ?_, hcarries⟩
  rw [houtputs', hfixed _ _ hd a' a (by rw [ha', hnode, ha]), ← houtputs]
  exact hsome

/-! ## Nodes that are lost -/

def Event.Pushed (id : NodeId) (events : List Event) : Prop :=
  ∃ call ∈ Event.calls events, call.isPush = true ∧ call.node.id = id

instance (id : NodeId) (events : List Event) : Decidable (Event.Pushed id events) :=
  inferInstanceAs (Decidable (∃ call ∈ Event.calls events, call.isPush = true ∧ call.node.id = id))

/-- A node is pushed in a pass but missed in another one, under the given limit.

- A push in the first pass leads to it. The second pass came to the source of this push at its limit only,
  deeper than the first one, and told that it goes no further.
- Or a push in the first pass leads to it from another node that is missed. -/
inductive Graph.Missed (g : Graph) (c : Catalogue σ) (limit : Nat) (before after : List Event) :
    NodeId → Prop where
  | cut {call : Call} {id : NodeId} {depth : Nat} (hcall : call ∈ Event.calls before)
      (hcause : call.cause = .pushed depth) (hdepth : depth < limit) (hleads : call.LeadsTo g c id)
      (hsource : Event.Pushed call.node.id after)
      (hlimit : ∀ call' ∈ Event.calls after, call'.isPush = true →
        call'.node.id = call.node.id → call'.cause = .pushed limit)
      (htold : .noted (.depthLimit limit call.node.id id) ∈ after)
      (hmissing : ¬ Event.Pushed id after) : Missed g c limit before after id
  | behind {call : Call} {id : NodeId} (hmissed : Missed g c limit before after call.node.id)
      (hcall : call ∈ Event.calls before) (hleads : call.LeadsTo g c id)
      (hmissing : ¬ Event.Pushed id after) : Missed g c limit before after id

/-- What a pass keeps of another pass under a lower limit.

- All nodes are pushed again, but for those that are missed.
- None is missed that was pushed at depth zero or one.
- None is missed if all that is cut off at the limit is pushed at some other time. -/
structure Graph.RaisedLimit (g : Graph) (c : Catalogue σ) (limit : Nat) (before after : List Event) :
    Prop where
  kept : ∀ id, Event.Pushed id before → Event.Pushed id after ∨ g.Missed c limit before after id
  shallow : ∀ call ∈ Event.calls before, call.cause = .pushed 0 ∨ call.cause = .pushed 1 →
    Event.Pushed call.node.id after
  uncut : (∀ source id, .noted (.depthLimit limit source id) ∈ after → Event.Pushed id after) →
    ∀ id, Event.Pushed id before → Event.Pushed id after

/-- A node is missed only where the pass tells that it was cut off. -/
theorem Graph.Missed.exists_cut {g : Graph} {c : Catalogue σ} {limit : Nat}
    {before after : List Event} {id : NodeId} (h : g.Missed c limit before after id) :
    ∃ source id', .noted (.depthLimit limit source id') ∈ after ∧ ¬ Event.Pushed id' after := by
  induction h with
  | cut _ _ _ _ _ _ htold hmissing => exact ⟨_, _, htold, hmissing⟩
  | behind _ _ _ _ ih => exact ih

/-! ## What pushes lead to -/

namespace Pass

variable {g : Graph} {c : Catalogue σ} {config config' : ExecutorConfig} {s t : Pass σ}
  {call call' : Call} {depth : Nat} {id : NodeId}

/-- A finished pass with what became of its runs: they are genuine, their nodes are those that are marked,
and the connections that they opened were answered. -/
structure Complete (g : Graph) (c : Catalogue σ) (config : ExecutorConfig) (s : Pass σ) : Prop where
  finished : Over g c config s
  backed : s.Backed
  genuine : ∀ call ∈ s.calls.reverse, call.Genuine c
  answered : ∀ call ∈ s.calls.reverse, Answered (g.plan c config) s call

/-- Every pass is complete at its end. -/
theorem complete_passEnd (g : Graph) (c : Catalogue σ) (config : ExecutorConfig) (world : World σ)
    (memories : Table NodeId Slot) :
    Complete g c config (Executor.passEnd g c config world memories) where
  finished := over_passEnd g c config world memories
  backed := backed_steps (Wiring.keyed_ofGraph g) ((g.plan c config).steps_pass _ world memories)
    fun _ hid => absurd hid List.not_mem_nil
  genuine _ hcall := Plan.genuine_of_mem_calls (List.mem_reverse.1 hcall)
  answered _ hcall := (g.plan c config).answered_pass _ world memories (List.mem_reverse.1 hcall)

theorem pushed_iff : Event.Pushed id s.events.reverse ↔
    ∃ call ∈ s.calls.reverse, call.isPush = true ∧ call.node.id = id := by
  rw [Event.Pushed, calls_reverse]

namespace Complete

/-- Where a push leads to a node of known kind, the node is pushed, or the push was at the limit and this is
told. -/
theorem pushed_or_limited (h : Complete g c config s) (hcall : call ∈ s.calls.reverse)
    (hcause : call.cause = .pushed depth) (hleads : call.LeadsTo g c id) {d : Definition σ}
    (hknown : g.definition? c id = some d) :
    Event.Pushed id s.events.reverse ∨ depth = config.maxDepth ∧
      .noted (.depthLimit config.maxDepth call.node.id id) ∈ s.events.reverse := by
  rcases hleads with ⟨-, conn, hconn, hfrom, hopens, rfl⟩
  rcases Graph.definition?_eq_some_iff.1 hknown with ⟨target, htarget, hd⟩
  have hanswer : Answer (g.plan c config) s call.node.id conn depth target := by
    refine h.answered call hcall conn depth target hcause ?_ hopens ?_
    · rw [Wiring.connectionsFrom_ofGraph, Graph.mem_connectionsFrom]
      exact ⟨hconn, hfrom⟩
    · rw [Wiring.node?_ofGraph]
      exact htarget
  rw [← Graph.id_of_node? htarget]
  rcases Nat.lt_or_ge config.maxDepth (depth + 1) with hbeyond | hroom
  · have hle : depth ≤ config.maxDepth := h.finished.depth_le hcall hcause
    exact Or.inr ⟨by omega, List.mem_reverse.2 (hanswer.limited hbeyond)⟩
  · rcases h.backed target.id (hanswer.marked hroom d hd) with ⟨call', hcall', hpushed⟩
    exact Or.inl (pushed_iff.2 ⟨call', List.mem_reverse.2 hcall', hpushed⟩)

/-! ## Two passes -/

/-- A push of the same node in another pass leads to the same nodes. -/
theorem leadsTo_of_fixed (hfixed : c.Fixed) (hs : Complete g c config s) (ht : Complete g c config' t)
    (hcall : call ∈ s.calls.reverse) (hcall' : call' ∈ t.calls.reverse)
    (hpush' : call'.isPush = true) (hid : call'.node.id = call.node.id)
    (hleads : call.LeadsTo g c id) : call'.LeadsTo g c id := by
  have hnode : call'.node = call.node :=
    Option.some.inj ((ht.finished.known hcall').1.symm.trans (hid ▸ (hs.finished.known hcall).1))
  rcases hleads with ⟨-, conn, hconn, hfrom, hopens, hto⟩
  exact ⟨hpush', conn, hconn, hfrom.trans hid.symm,
    hopens.of_fixed hfixed (hs.genuine call hcall) (ht.genuine call' hcall') hnode, hto⟩

/-- Every pass pushes the same start nodes, at depth zero. -/
theorem exists_start (hs : Complete g c config s) (ht : Complete g c config' t)
    (hcall : call ∈ s.calls.reverse) (hcause : call.cause = .pushed 0) :
    ∃ call' ∈ t.calls.reverse, call'.cause = .pushed 0 ∧ call'.isPush = true ∧
      call'.node.id = call.node.id := by
  have hstart := hs.finished.mem_startNodes hcall hcause
  rw [← ht.finished.starts_ids] at hstart
  rcases List.mem_map.1 hstart with ⟨call', hmem, hid⟩
  rcases List.mem_filter.1 hmem with ⟨hcall', hzero⟩
  have hcause' : call'.cause = .pushed 0 := of_decide_eq_true hzero
  exact ⟨call', hcall', hcause', Call.isPush_iff.2 ⟨0, hcause'⟩, hid⟩

/-- What the first pass comes to from some node and the second pass does not, is cut off: all pushes of that
node in the second pass are at the limit. -/
theorem cut_of_missing (hfixed : c.Fixed) (hs : Complete g c config s) (ht : Complete g c config' t)
    (hcall : call ∈ s.calls.reverse) (hleads : call.LeadsTo g c id) {d : Definition σ}
    (hknown : g.definition? c id = some d) (hmissing : ¬ Event.Pushed id t.events.reverse) :
    ∀ call' ∈ t.calls.reverse, call'.isPush = true → call'.node.id = call.node.id →
      call'.cause = .pushed config'.maxDepth ∧
        .noted (.depthLimit config'.maxDepth call.node.id id) ∈ t.events.reverse := by
  intro call' hcall' hpush' hid
  have hleads' := leadsTo_of_fixed hfixed hs ht hcall hcall' hpush' hid hleads
  rcases Call.isPush_iff.1 hpush' with ⟨depth', hcause'⟩
  rcases ht.pushed_or_limited hcall' hcause' hleads' hknown with hpushed | ⟨rfl, htold⟩
  · exact absurd hpushed hmissing
  · exact ⟨hcause', hid ▸ htold⟩

/-- Level by level: the second pass pushes the node as well, unless it misses it. -/
theorem pushed_or_missed (hfixed : c.Fixed) (hlimit : config.maxDepth ≤ config'.maxDepth)
    (hs : Complete g c config s) (ht : Complete g c config' t) (hcall : call ∈ s.calls.reverse)
    (hcause : call.cause = .pushed depth) :
    Event.Pushed call.node.id t.events.reverse ∨
      g.Missed c config'.maxDepth s.events.reverse t.events.reverse call.node.id := by
  induction depth generalizing call with
  | zero =>
    rcases exists_start hs ht hcall hcause with ⟨call', hcall', -, hpushed⟩
    exact Or.inl (pushed_iff.2 ⟨call', hcall', hpushed⟩)
  | succ depth ih =>
    by_cases hpushed : Event.Pushed call.node.id t.events.reverse
    · exact Or.inl hpushed
    · refine Or.inr ?_
      rcases hs.finished.exists_source hcall hcause with ⟨source, hsource, hsourceCause, hleads⟩
      have hdepth : depth + 1 ≤ config.maxDepth := hs.finished.depth_le hcall hcause
      rcases hs.finished.exists_definition hcall with ⟨d, hknown⟩
      have hrun : source ∈ Event.calls s.events.reverse := by
        rw [calls_reverse]
        exact hsource
      rcases ih hsource hsourceCause with hsourcePushed | hmissed
      · have hcut := cut_of_missing hfixed hs ht hsource hleads hknown hpushed
        rcases pushed_iff.1 hsourcePushed with ⟨call', hcall', hpush', hid⟩
        refine .cut hrun hsourceCause (by omega) hleads hsourcePushed ?_
          (hcut call' hcall' hpush' hid).2 hpushed
        rw [calls_reverse]
        exact fun call' hcall' hpush' hid => (hcut call' hcall' hpush' hid).1
      · exact .behind hmissed hrun hleads hpushed

/-- Start nodes are pushed at depth zero under any limit, so what they lead to is not cut off. -/
theorem pushed_of_shallow (hfixed : c.Fixed) (hlimit : config.maxDepth ≤ config'.maxDepth)
    (hs : Complete g c config s) (ht : Complete g c config' t) (hcall : call ∈ s.calls.reverse)
    (hcause : call.cause = .pushed 0 ∨ call.cause = .pushed 1) :
    Event.Pushed call.node.id t.events.reverse := by
  rcases hcause with hcause | hcause
  · rcases exists_start hs ht hcall hcause with ⟨call', hcall', -, hpushed⟩
    exact pushed_iff.2 ⟨call', hcall', hpushed⟩
  · rcases hs.finished.exists_source hcall hcause with ⟨source, hsource, hsourceCause, hleads⟩
    have hdepth : 1 ≤ config.maxDepth := hs.finished.depth_le hcall hcause
    rcases hs.finished.exists_definition hcall with ⟨d, hknown⟩
    rcases exists_start hs ht hsource hsourceCause with ⟨call', hcall', hcause', hpush', hid⟩
    have hleads' := leadsTo_of_fixed hfixed hs ht hsource hcall' hpush' hid hleads
    rcases ht.pushed_or_limited hcall' hcause' hleads' hknown with hpushed | ⟨hzero, -⟩
    · exact hpushed
    · omega

end Complete

end Pass

/-- Where outputs are fixed, a pass under a higher limit pushes all nodes that a pass under a lower one
pushes, but for those that it comes to too late. -/
theorem Executor.raisedLimit (g : Graph) (c : Catalogue σ) (hfixed : c.Fixed)
    (config config' : ExecutorConfig) (hlimit : config.maxDepth ≤ config'.maxDepth)
    (turns turns' : List (Turn σ)) (world world' : World σ) :
    g.RaisedLimit c config'.maxDepth
      (((ofGraph g c config).1.after turns).execute world).2.2
      (((ofGraph g c config').1.after turns').execute world').2.2 := by
  rw [events_after, events_after]
  have hs := Pass.complete_passEnd g c config world ((ofGraph g c config).1.after turns).memories
  have ht := Pass.complete_passEnd g c config' world' ((ofGraph g c config').1.after turns').memories
  generalize passEnd g c config world _ = s at hs ⊢
  generalize passEnd g c config' world' _ = t at ht ⊢
  have hkept : ∀ id, Event.Pushed id s.events.reverse → Event.Pushed id t.events.reverse ∨
      g.Missed c config'.maxDepth s.events.reverse t.events.reverse id := by
    intro id hid
    rcases Pass.pushed_iff.1 hid with ⟨call, hcall, hpush, rfl⟩
    rcases Call.isPush_iff.1 hpush with ⟨depth, hcause⟩
    exact Pass.Complete.pushed_or_missed hfixed hlimit hs ht hcall hcause
  constructor
  case kept => exact hkept
  case shallow =>
    rw [Pass.calls_reverse]
    exact fun call hcall hcause => Pass.Complete.pushed_of_shallow hfixed hlimit hs ht hcall hcause
  case uncut =>
    intro htold id hid
    rcases hkept id hid with hpushed | hmissed
    · exact hpushed
    · rcases hmissed.exists_cut with ⟨source, id', htold', hmissing⟩
      exact absurd (htold source id' htold') hmissing

/-! ## A node that is lost -/

/-- A kind whose nodes fire their only output, whatever happens. -/
def Definition.firing (kind : KindName) (inputs : List Port) (frameTrigger : Bool) :
    Definition Unit where
  kind := kind
  category := .utility
  inputs := inputs
  outputs := [.control "exec"]
  frameTrigger := frameTrigger
  run a := a.finish (some (.fire "exec"))

/-- A kind that starts passes, and one that passes them on. -/
def Catalogue.firing : Catalogue Unit :=
  (registerAll ∅ [.firing "Tick" [] true, .firing "Act" [.control "exec"] false]).1

/-- The long way to a node comes before the short one, and one more node is behind it. -/
def Graph.detour : Graph where
  nodes := [.ofKind "tick" "Tick", .ofKind "a" "Act", .ofKind "b" "Act", .ofKind "x" "Act",
    .ofKind "y" "Act"]
  connections :=
    [⟨"1", "tick", "exec", "a", "exec"⟩, ⟨"2", "a", "exec", "b", "exec"⟩,
     ⟨"3", "b", "exec", "x", "exec"⟩, ⟨"4", "tick", "exec", "x", "exec"⟩,
     ⟨"5", "x", "exec", "y", "exec"⟩]

def Executor.detourEvents (limit : Nat) : List Event :=
  (((ofGraph Graph.detour Catalogue.firing ⟨.reinvoke, limit⟩).1.after []).execute
    (World.ofHost () ⟨fun _ => "", 0⟩)).2.2

theorem Catalogue.runs_firing {kind : KindName} {d : Definition Unit}
    (hd : Catalogue.firing.get? kind = some d) (a : Activation Unit) :
    d.run a = a.finish (some (.fire "exec")) := by
  rcases get?_registerAll hd with hnone | ⟨hmem, -⟩
  · cases hnone
  · simp only [List.mem_cons, List.not_mem_nil, or_false] at hmem
    rcases hmem with rfl | rfl <;> rfl

/-- With two levels the short way is taken to the node and beyond. With three the long way is taken first
and ends at the limit, and the short one comes too late. -/
theorem Executor.raised_limit_loses :
    (∀ kind d, Catalogue.firing.get? kind = some d → ∀ a : Activation Unit,
      (d.run a).outputs = some (.fire "exec") ∧ (d.run a).world = a.world) ∧
    Event.Pushed "y" (detourEvents 2) ∧ ¬ Event.Pushed "y" (detourEvents 3) := by
  refine ⟨fun kind d hd a => ?_, by decide, by decide⟩
  rw [Catalogue.runs_firing hd]
  exact ⟨rfl, rfl⟩

/-- The third level loses the node because it is cut off. -/
theorem Executor.raisedLimit_detour :
    Catalogue.firing.Fixed ∧ (2 : Nat) ≤ 3 ∧
    Graph.detour.Missed Catalogue.firing 3 (detourEvents 2) (detourEvents 3) "y" := by
  have hfixed : Catalogue.firing.Fixed := by
    intro kind d hd a b _
    rw [Catalogue.runs_firing hd, Catalogue.runs_firing hd]
    rfl
  refine ⟨hfixed, by decide, ?_⟩
  have hraised : Graph.detour.RaisedLimit Catalogue.firing 3 (detourEvents 2) (detourEvents 3) :=
    raisedLimit Graph.detour Catalogue.firing hfixed ⟨.reinvoke, 2⟩ ⟨.reinvoke, 3⟩ (by decide) [] []
      _ _
  exact (hraised.kept "y" (by decide)).resolve_left (by decide)

end GraphScript

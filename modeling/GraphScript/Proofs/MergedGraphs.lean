import GraphScript.Proofs.WiringLists

/-!
# MergedGraphs — two graphs side by side in one

- `Interleaved` — a list that is made of two others, each in its own order;
- `Graph.Merges` and `Graph.Apart` — a graph is made of two graphs, and these have nothing to do with
  each other;
- `node?_left`, `connectionsFrom_left`, `connectionsTo_left` and `startNodes_left` — whatever is looked
  up under an id of the first graph is found as in this graph alone.
-/

namespace GraphScript

/-! ## Interleaved lists -/

/-- The first list is made of the two others, each in its own order. -/
inductive Interleaved {α : Type} : List α → List α → List α → Prop where
  | nil : Interleaved [] [] []
  | left (a : α) {l l₁ l₂ : List α} (h : Interleaved l l₁ l₂) : Interleaved (a :: l) (a :: l₁) l₂
  | right (a : α) {l l₁ l₂ : List α} (h : Interleaved l l₁ l₂) : Interleaved (a :: l) l₁ (a :: l₂)

namespace Interleaved

variable {α : Type} {l l₁ l₂ : List α} {P : α → Bool}

theorem symm (h : Interleaved l l₁ l₂) : Interleaved l l₂ l₁ := by
  induction h with
  | nil => exact .nil
  | left a _ ih => exact .right a ih
  | right a _ ih => exact .left a ih

/-- Nothing is lost and nothing is added. -/
theorem mem_iff (h : Interleaved l l₁ l₂) {a : α} : a ∈ l ↔ a ∈ l₁ ∨ a ∈ l₂ := by
  induction h with
  | nil => simp
  | left b _ ih => rw [List.mem_cons, List.mem_cons, ih, or_assoc]
  | right b _ ih => rw [List.mem_cons, List.mem_cons, ih, or_left_comm]

/-- What holds of no item of the second list picks its items from the first one. -/
theorem filter_left (h : Interleaved l l₁ l₂) (hnone : ∀ a ∈ l₂, P a = false) :
    l.filter P = l₁.filter P := by
  induction h with
  | nil => rfl
  | left a _ ih => rw [List.filter_cons, List.filter_cons, ih hnone]
  | right a _ ih =>
    rw [List.forall_mem_cons] at hnone
    rw [List.filter_cons_of_neg (by simp [hnone.1]), ih hnone.2]

/-- What is not in the second list is found in the first one, at the same place in the order. -/
theorem find?_left (h : Interleaved l l₁ l₂) (hnone : ∀ a ∈ l₂, P a = false) :
    l.find? P = l₁.find? P := by
  rw [← List.head?_filter, ← List.head?_filter, h.filter_left hnone]

end Interleaved

/-- Nodes under one id are picked alike, if they are picked by their ids. -/
theorem eraseDupsBy_filter_id (P : NodeId → Bool) (ns : List Node) :
    (ns.filter fun n => P n.id).eraseDupsBy (fun m n => m.id == n.id) =
      (ns.eraseDupsBy fun m n => m.id == n.id).filter fun n => P n.id := by
  refine eraseDupsBy_filter ?_ ns
  intro m n hsame
  rw [beq_iff_eq.1 hsame]

/-! ## Merged graphs -/

structure Graph.Merges (g g₁ g₂ : Graph) : Prop where
  nodes : Interleaved g.nodes g₁.nodes g₂.nodes
  connections : Interleaved g.connections g₁.connections g₂.connections

def Graph.Has (g : Graph) (id : NodeId) : Prop := id ∈ g.nodes.map (·.id)

instance (g : Graph) (id : NodeId) : Decidable (g.Has id) :=
  inferInstanceAs (Decidable (id ∈ g.nodes.map (·.id)))

def Connection.Avoids (conn : Connection) (g : Graph) : Prop :=
  ¬ g.Has conn.fromNode ∧ ¬ g.Has conn.toNode

instance (conn : Connection) (g : Graph) : Decidable (conn.Avoids g) :=
  inferInstanceAs (Decidable (¬ g.Has conn.fromNode ∧ ¬ g.Has conn.toNode))

/-- No node id of one graph is one of the other, and no connection of one mentions one of the other. -/
structure Graph.Apart (g₁ g₂ : Graph) : Prop where
  nodes : ∀ id, g₁.Has id → ¬ g₂.Has id
  left : ∀ conn ∈ g₁.connections, conn.Avoids g₂
  right : ∀ conn ∈ g₂.connections, conn.Avoids g₁

namespace Graph

variable {g g₁ g₂ : Graph} {id : NodeId} {σ : Type}

theorem Merges.symm (h : g.Merges g₁ g₂) : g.Merges g₂ g₁ :=
  ⟨h.nodes.symm, h.connections.symm⟩

theorem Apart.symm (h : g₁.Apart g₂) : g₂.Apart g₁ :=
  ⟨fun id h₂ h₁ => h.nodes id h₁ h₂, h.right, h.left⟩

theorem has_of_node? {n : Node} (h : g.node? id = some n) : g.Has n.id :=
  List.mem_map_of_mem (mem_of_node? h)

namespace Merges

variable (h : g.Merges g₁ g₂)

include h

/-- An id that the second graph does not have is found as in the first one. -/
theorem node?_left (hid : ¬ g₂.Has id) : g.node? id = g₁.node? id := by
  refine h.nodes.find?_left ?_
  intro n hn
  have hne : n.id ≠ id := fun heq => hid (heq ▸ List.mem_map_of_mem hn)
  simp [hne]

variable (hapart : g₁.Apart g₂)

include hapart

/-- What leaves a node of the first graph left it there. -/
theorem connectionsFrom_left (hid : g₁.Has id) : g.connectionsFrom id = g₁.connectionsFrom id := by
  refine h.connections.filter_left ?_
  intro conn hconn
  have hne : conn.fromNode ≠ id := fun heq => (hapart.right conn hconn).1 (heq ▸ hid)
  simp [hne]

/-- What enters it entered it there. -/
theorem connectionsTo_left (hid : g₁.Has id) : g.connectionsTo id = g₁.connectionsTo id := by
  refine h.connections.filter_left ?_
  intro conn hconn
  have hne : conn.toNode ≠ id := fun heq => (hapart.right conn hconn).2 (heq ▸ hid)
  simp [hne]

/-- The starts of the first graph keep their order among all starts. -/
theorem startNodes_left (c : Catalogue σ) :
    ((Wiring.ofGraph g).startNodes c).filter (fun id => decide (g₁.Has id)) =
      (Wiring.ofGraph g₁).startNodes c := by
  have hnodes : g.nodes.filter (fun n => decide (g₁.Has n.id)) = g₁.nodes := by
    rw [h.nodes.filter_left]
    · exact List.filter_eq_self.2 fun n hn => decide_eq_true (List.mem_map_of_mem hn)
    · intro n hn
      exact decide_eq_false fun hid => hapart.nodes _ hid (List.mem_map_of_mem hn)
  have hvalues : (Wiring.ofGraph g).nodes.values.filter (fun n => decide (g₁.Has n.id)) =
      (Wiring.ofGraph g₁).nodes.values := by
    rw [Wiring.values_ofGraph, Wiring.values_ofGraph,
      ← eraseDupsBy_filter_id fun id => decide (g₁.Has id), hnodes]
  rw [Wiring.startNodes, Wiring.startNodes, ← hvalues, List.filter_map, List.filter_filter,
    List.filter_filter]
  refine congrArg _ (List.filter_congr ?_)
  intro n _
  exact Bool.and_comm _ _

end Merges

end Graph

end GraphScript

import GraphScript.Kind.Standard
import GraphScript.Proofs.ExecutorRuns
import GraphScript.Proofs.MirroredPasses
import GraphScript.Proofs.StandardKinds

/-!
# EditorData — what an editor may change in a graph

Loaders and editors rewrite graphs: nodes are moved and labelled, properties come in another order, and
connections get other ids and another order.

- `Graph.Matches` — the same nodes but for data of the editor, each with the same connections in the same
  order; connections that share neither source nor target may change places;
- `Graph.Matches.startNodes` and `Graph.Matches.plan` — matching graphs have the same start nodes, and
  their plans mirror each other;
- `Kind.blind_of_mem` — the standard kinds do not look at data of the editor.
-/

namespace GraphScript

variable {σ : Type}

/-! ## Matching graphs -/

def Connection.ends (conn : Connection) : NodeId × PortId × NodeId × PortId :=
  (conn.fromNode, conn.fromPort, conn.toNode, conn.toPort)

/-- The graphs have matching nodes in the same order.  What leaves or enters a node is the same in both,
and has the same order there. -/
structure Graph.Matches (g h : Graph) : Prop where
  nodes : List.Forall₂ Node.Matches g.nodes h.nodes
  outgoing : ∀ n ∈ g.nodes,
    (h.connectionsFrom n.id).map Connection.ends = (g.connectionsFrom n.id).map Connection.ends
  incoming : ∀ n ∈ g.nodes,
    (h.connectionsTo n.id).map Connection.ends = (g.connectionsTo n.id).map Connection.ends

/-- Connections match if they lead from and to the same places, one by one. -/
theorem Connection.forall₂_matches {l l' : List Connection} (h : l'.map ends = l.map ends) :
    List.Forall₂ Matches l l' := by
  have hends : List.Forall₂ Eq (l.map ends) (l'.map ends) := by
    rw [h]
    exact List.forall₂_same.2 fun _ _ => rfl
  rw [List.forall₂_map_left_iff, List.forall₂_map_right_iff] at hends
  refine hends.imp ?_
  intro conn conn' hsame
  simp only [ends, Prod.mk.injEq] at hsame
  exact ⟨hsame.1.symm, hsame.2.1.symm, hsame.2.2.1.symm, hsame.2.2.2.symm⟩

namespace Graph

variable {g h : Graph}

/-- Start nodes are picked by ids and kinds. -/
theorem startNodes_eq (g : Graph) (c : Catalogue σ) :
    (Wiring.ofGraph g).startNodes c =
      (((g.nodes.map fun n => (n.id, n.kind)).eraseDupsBy fun a b => a.1 == b.1).filter
        fun a => (c.get? a.2).any Definition.isStart).map Prod.fst := by
  rw [Wiring.startNodes, Wiring.values_ofGraph, ← map_eraseDupsBy (fun _ _ => rfl), List.filter_map,
    List.map_map]
  rfl

namespace Matches

/-- Matching graphs have matching nodes under each id. -/
theorem node? (hmatch : g.Matches h) (id : NodeId) :
    Option.Rel Node.Matches (g.node? id) (h.node? id) := by
  have hfind : ∀ ns ms : List Node, List.Forall₂ Node.Matches ns ms →
      Option.Rel Node.Matches (ns.find? (·.id = id)) (ms.find? (·.id = id)) := by
    intro ns ms hnodes
    induction hnodes with
    | nil => exact .none
    | cons hnode _ ih =>
      rw [List.find?_cons, List.find?_cons, hnode.id]
      split
      · -- Ids are the same, so the searches end at the same place.
        exact .some hnode
      · exact ih
  exact hfind _ _ hmatch.nodes

/-- They have the same start nodes. -/
theorem startNodes (hmatch : g.Matches h) (c : Catalogue σ) :
    (Wiring.ofGraph h).startNodes c = (Wiring.ofGraph g).startNodes c := by
  have hpairs : ∀ ns ms : List Node, List.Forall₂ Node.Matches ns ms →
      (ms.map fun n => (n.id, n.kind)) = ns.map fun n => (n.id, n.kind) := by
    intro ns ms hnodes
    induction hnodes with
    | nil => rfl
    | cons hnode _ ih => simp only [List.map_cons, hnode.id, hnode.kind, ih]
  rw [startNodes_eq, startNodes_eq, hpairs _ _ hmatch.nodes]

/-- Over blind kinds the plans of matching graphs mirror each other. -/
theorem plan (hmatch : g.Matches h) (c : Catalogue σ) (config : ExecutorConfig)
    (hblind : ∀ kind d, c.get? kind = some d → d.Blind) :
    (g.plan c config).Mirrors (h.plan c config) where
  node id := by
    rw [Wiring.node?_ofGraph, Wiring.node?_ofGraph]
    exact hmatch.node? id
  outgoing id n hn := by
    rw [Wiring.node?_ofGraph] at hn
    rw [Wiring.connectionsFrom_ofGraph, Wiring.connectionsFrom_ofGraph]
    exact Connection.forall₂_matches (hmatch.outgoing n (mem_of_node? hn))
  incoming id n hn := by
    rw [Wiring.node?_ofGraph] at hn
    rw [Wiring.connectionsTo_ofGraph, Wiring.connectionsTo_ofGraph]
    exact Connection.forall₂_matches (hmatch.incoming n (mem_of_node? hn))
  catalogue := rfl
  config := rfl
  blind := hblind

end Matches

end Graph

/-! ## The standard kinds -/

namespace Node.Matches

variable {n m : Node} (h : n.Matches m)

include h

/-- Reads of properties do not see the label or the place of a node, nor the order of its properties. -/
theorem number? (key : String) : m.number? key = n.number? key := by
  rw [Node.number?, Node.number?, h.property]

theorem text? (key : String) : m.text? key = n.text? key := by
  rw [Node.text?, Node.text?, h.property]

/-- Nor do reads of inputs that fall back on properties. -/
theorem value? (i : Inputs) (port : PortId) : i.value? port m = i.value? port n := by
  rw [Inputs.value?, Inputs.value?, h.property]

theorem numberOr (i : Inputs) (port : PortId) (fallback : Float) :
    i.numberOr port m fallback = i.numberOr port n fallback := by
  rw [Inputs.numberOr, Inputs.numberOr, h.value?]

theorem boolOr (i : Inputs) (port : PortId) (fallback : Bool) :
    i.boolOr port m fallback = i.boolOr port n fallback := by
  rw [Inputs.boolOr, Inputs.boolOr, h.value?]

theorem textOr (i : Inputs) (port : PortId) (fallback : String) :
    i.textOr port m fallback = i.textOr port n fallback := by
  rw [Inputs.textOr, Inputs.textOr, h.text?]

theorem entity? (i : Inputs) (port : PortId) (property : String) :
    i.entity? port m property = i.entity? port n property := by
  rw [Inputs.entity?, Inputs.entity?, h.property]

end Node.Matches

namespace Kind

-- A run reads its node through the properties only, and tells its id.  So each kind is unfolded down to
-- the readers above, and these are the same for matching nodes.

/-- A node that fires once looks at its id and its memory only. -/
theorem blind_onStart : (onStart : Definition σ).Blind := by
  intro world inputs memory n m h
  simp only [onStart, Activation.restore, Activation.finish, h.id]
  rfl

theorem blind_onKey [SceneHost σ] : (onKey : Definition σ).Blind := by
  intro world inputs memory n m h
  simp only [onKey, Activation.finish, h.text?, h.id]

theorem blind_every : (every : Definition σ).Blind := by
  intro world inputs memory n m h
  have hinterval : interval m = interval n := by rw [interval, interval, h.number?]
  simp only [every, Activation.restore, Activation.finish, hinterval, h.id]
  rfl

theorem blind_branch : (branch : Definition σ).Blind := by
  intro world inputs memory n m h
  simp only [branch, Activation.finish, h.boolOr]

theorem blind_compare : (compare : Definition σ).Blind := by
  intro world inputs memory n m h
  simp only [compare, operand, Activation.finish, h.value?, h.text?, h.id]

theorem blind_setVariable : (setVariable : Definition σ).Blind := by
  intro world inputs memory n m h
  simp only [setVariable, variableName, Activation.finish, h.value?, h.text?]

theorem blind_addToVariable : (addToVariable : Definition σ).Blind := by
  intro world inputs memory n m h
  simp only [addToVariable, variableName, Activation.finish, h.numberOr, h.text?]

theorem blind_getVariable : (getVariable : Definition σ).Blind := by
  intro world inputs memory n m h
  simp only [getVariable, variableName, Activation.finish, h.text?]

theorem blind_getEntity : (getEntity : Definition σ).Blind := by
  intro world inputs memory n m h
  simp only [getEntity, Activation.finish, h.text?]

theorem blind_spawn [SceneHost σ] : (spawn : Definition σ).Blind := by
  intro world inputs memory n m h
  simp only [spawn, spawnRequest, Activation.finish, h.textOr, h.numberOr, h.property, h.text?, h.id]

theorem blind_destroy [SceneHost σ] : (destroy : Definition σ).Blind := by
  intro world inputs memory n m h
  simp only [destroy, Activation.finish, h.entity?, h.id]

theorem blind_resetGame [SceneHost σ] : (resetGame : Definition σ).Blind := by
  intro world inputs memory n m h
  simp only [resetGame, Activation.finish, h.id]

/-- No standard kind looks at data of the editor. -/
theorem blind_of_mem [SceneHost σ] {d : Definition σ} (hd : d ∈ standard) : d.Blind := by
  cases d, hd using standard_cases with
  | onStart => exact blind_onStart
  | onKey => exact blind_onKey
  | every => exact blind_every
  | branch => exact blind_branch
  | setVariable => exact blind_setVariable
  | addToVariable => exact blind_addToVariable
  | getVariable => exact blind_getVariable
  | compare => exact blind_compare
  | getEntity => exact blind_getEntity
  | spawn => exact blind_spawn
  | destroy => exact blind_destroy
  | resetGame => exact blind_resetGame

end Kind

end GraphScript

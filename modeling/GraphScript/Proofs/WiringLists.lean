import GraphScript.Executor
import GraphScript.Proofs.Repeats
import GraphScript.Proofs.TableEntries

/-!
# WiringLists — the indices of a wiring against the lists of its graph

- `node?_ofGraph`, `connectionsFrom_ofGraph` and `connectionsTo_ofGraph`: an index finds what a
  search through the authored lists finds, in the same order.
- `values_ofGraph`, `keys_ofGraph`: the nodes come in the order of their declaration, the first one under
  each id.
- `mem_startNodes_iff`, `startNodes_eq_filter`, `startNodes_sublist` and `startNodes_nodup`: which nodes
  begin a pass, and in which order.
- `Executor.wired_as_declared`: an executor looks up what its graph declares.
-/

namespace GraphScript

/-! ## Indices of connections -/

namespace ConnectionIndex

theorem connections_add (index : ConnectionIndex) (id other : NodeId) (c : Connection) :
    (index.add id c).connections other =
      index.connections other ++ if id = other then [c] else [] := by
  by_cases h : id = other
  · subst h
    simp [add, connections, Table.get?_insert]
  · simp [add, connections, Table.get?_insert, h]

/-- Entering connections one by one under their keys is filtering them by key. -/
theorem connections_foldl_add (key : Connection → NodeId) (cs : List Connection)
    (index : ConnectionIndex) (id : NodeId) :
    (cs.foldl (fun index c => index.add (key c) c) index).connections id =
      index.connections id ++ cs.filter (key · = id) := by
  induction cs generalizing index with
  | nil => simp
  | cons c cs ih =>
    rw [List.foldl_cons, ih, connections_add]
    by_cases h : key c = id
    · simp [h]
    · simp [h]

end ConnectionIndex

namespace Wiring

/-! ## Entering nodes and connections -/

theorem get?_addNode (w : Wiring) (n : Node) (id : NodeId) :
    (w.addNode n).nodes.get? id =
      (w.nodes.get? id).or (if n.id = id then some n else none) := by
  unfold addNode
  split
  · -- The id is taken, and the node that was entered first stays.
    rename_i htaken
    rcases Table.contains_iff.1 htaken with ⟨m, hm⟩
    by_cases h : n.id = id
    · subst h
      simp [hm]
    · simp [h]
  · rename_i hfree
    have hnone : w.nodes.get? n.id = none :=
      Table.contains_eq_false_iff.1 (Bool.eq_false_iff.2 hfree)
    by_cases h : n.id = id
    · subst h
      simp [Table.get?_insert, hnone]
    · simp [Table.get?_insert, h]

theorem get?_foldl_addNode (ns : List Node) (w : Wiring) (id : NodeId) :
    (ns.foldl addNode w).nodes.get? id = (w.nodes.get? id).or (ns.find? (·.id = id)) := by
  induction ns generalizing w with
  | nil => simp
  | cons n ns ih =>
    rw [List.foldl_cons, ih, get?_addNode]
    by_cases h : n.id = id
    · simp [h]
    · simp [h]

theorem foldl_addConnection (cs : List Connection) (w : Wiring) :
    cs.foldl addConnection w =
      { nodes := w.nodes
        outgoing := cs.foldl (fun index c => index.add c.fromNode c) w.outgoing
        incoming := cs.foldl (fun index c => index.add c.toNode c) w.incoming } := by
  induction cs generalizing w with
  | nil => rfl
  | cons c cs ih => rw [List.foldl_cons, ih]; rfl

theorem foldl_addNode_outgoing (ns : List Node) (w : Wiring) :
    (ns.foldl addNode w).outgoing = w.outgoing ∧ (ns.foldl addNode w).incoming = w.incoming := by
  induction ns generalizing w with
  | nil => exact ⟨rfl, rfl⟩
  | cons n ns ih =>
    have hnode : (w.addNode n).outgoing = w.outgoing ∧ (w.addNode n).incoming = w.incoming := by
      unfold addNode
      split <;> exact ⟨rfl, rfl⟩
    rw [List.foldl_cons, (ih _).1, (ih _).2]
    exact hnode

/-! ## Looking up -/

/-- Nodes are found in the wiring as in the graph. -/
@[simp] theorem node?_ofGraph (g : Graph) (id : NodeId) : (ofGraph g).node? id = g.node? id := by
  rw [node?, ofGraph, foldl_addConnection, get?_foldl_addNode]
  exact Option.none_or

/-- So are the connections from a node, in their order. -/
@[simp] theorem connectionsFrom_ofGraph (g : Graph) (id : NodeId) :
    (ofGraph g).connectionsFrom id = g.connectionsFrom id := by
  rw [connectionsFrom, ofGraph, foldl_addConnection, ConnectionIndex.connections_foldl_add,
    (foldl_addNode_outgoing _ _).1]
  exact List.nil_append _

/-- So are the connections to a node. -/
@[simp] theorem connectionsTo_ofGraph (g : Graph) (id : NodeId) :
    (ofGraph g).connectionsTo id = g.connectionsTo id := by
  rw [connectionsTo, ofGraph, foldl_addConnection, ConnectionIndex.connections_foldl_add,
    (foldl_addNode_outgoing _ _).2]
  exact List.nil_append _

end Wiring

namespace Graph

theorem id_of_node? {g : Graph} {id : NodeId} {n : Node} (h : g.node? id = some n) : n.id = id := by
  simpa using List.find?_some h

theorem mem_of_node? {g : Graph} {id : NodeId} {n : Node} (h : g.node? id = some n) :
    n ∈ g.nodes :=
  List.mem_of_find?_eq_some h

@[simp] theorem mem_connectionsFrom {g : Graph} {id : NodeId} {c : Connection} :
    c ∈ g.connectionsFrom id ↔ c ∈ g.connections ∧ c.fromNode = id := by
  simp [connectionsFrom]

@[simp] theorem mem_connectionsTo {g : Graph} {id : NodeId} {c : Connection} :
    c ∈ g.connectionsTo id ↔ c ∈ g.connections ∧ c.toNode = id := by
  simp [connectionsTo]

end Graph

namespace Wiring

/-! ## Start nodes -/

variable {σ : Type}

/-- Nodes are entered in the order of their declaration, the first one under each id. -/
theorem values_foldl_addNode (ns : List Node) (w : Wiring) :
    (ns.foldl addNode w).nodes.values = w.nodes.values ++
      (ns.filter fun n => !w.nodes.contains n.id).eraseDupsBy fun m n => m.id == n.id := by
  induction ns generalizing w with
  | nil => exact (List.append_nil _).symm
  | cons n ns ih =>
    rw [List.foldl_cons, ih]
    cases htaken : w.nodes.contains n.id with
    | true =>
      have hsame : w.addNode n = w := by rw [addNode, if_pos htaken]
      rw [hsame, List.filter_cons_of_neg (by simp [htaken])]
    | false =>
      have hentered : w.addNode n = { w with nodes := w.nodes.insert n.id n } := by
        rw [addNode, if_neg (by simp [htaken])]
      have hvalues : (w.nodes.insert n.id n).values = w.nodes.values ++ [n] := by
        simp [Table.values, Table.entries_insert (Table.contains_eq_false_iff.1 htaken)]
      -- From now on the id is taken, so later nodes under it are left out.
      have htaken' : ∀ m : Node, (!(w.nodes.insert n.id n).contains m.id) =
          (decide ((m.id == n.id) = false) && !w.nodes.contains m.id) := by
        intro m
        by_cases hid : n.id = m.id
        · simp [Table.contains, Table.get?_insert, hid]
        · simp [Table.contains, Table.get?_insert, hid, Ne.symm hid]
      rw [hentered, hvalues, List.filter_cons_of_pos (by simp [htaken]), List.eraseDupsBy_cons,
        List.filter_filter, List.append_assoc]
      simp only [htaken', List.cons_append, List.nil_append]

/-- The wiring lists the first node under each id. -/
theorem values_ofGraph (g : Graph) :
    (ofGraph g).nodes.values = g.nodes.eraseDupsBy fun m n => m.id == n.id := by
  have hall : (g.nodes.filter fun n => !({} : Wiring).nodes.contains n.id) = g.nodes :=
    List.filter_eq_self.2 fun _ _ => rfl
  have hvalues := values_foldl_addNode g.nodes {}
  rw [hall] at hvalues
  rw [ofGraph, foldl_addConnection]
  exact hvalues

theorem values_map_id (g : Graph) : (ofGraph g).nodes.values.map (·.id) = (ofGraph g).nodes.keys := by
  rw [Table.values, Table.keys, List.map_map]
  refine List.map_congr_left ?_
  rintro ⟨id, n⟩ hmem
  have hget : (ofGraph g).node? id = some n := Table.get?_eq_some_iff.2 hmem
  rw [node?_ofGraph] at hget
  exact Graph.id_of_node? hget

theorem keys_ofGraph (g : Graph) : (ofGraph g).nodes.keys = (g.nodes.map (·.id)).eraseDups := by
  rw [← values_map_id, values_ofGraph]
  exact map_eraseDupsBy (fun _ _ => rfl) g.nodes

/-- The ids of nodes that can start a pass, in the order in which they were declared first. -/
theorem startNodes_eq_filter (g : Graph) (c : Catalogue σ) : (ofGraph g).startNodes c =
    (ofGraph g).nodes.keys.filter fun id =>
      (g.node? id).any fun n => (c.get? n.kind).any Definition.isStart := by
  rw [startNodes, ← values_map_id, List.filter_map]
  refine congrArg _ (List.filter_congr ?_)
  intro n hn
  -- A node is entered only if it is the first one under its id.
  obtain ⟨id, hid⟩ := Table.mem_values_iff.1 hn
  have hfound : g.node? id = some n := (node?_ofGraph g id).symm.trans hid
  rw [Function.comp_apply, Graph.id_of_node? hfound, hfound, Option.any_some]

theorem startNodes_sublist_keys (g : Graph) (c : Catalogue σ) :
    ((ofGraph g).startNodes c).Sublist (ofGraph g).nodes.keys := by
  rw [startNodes_eq_filter]
  exact List.filter_sublist

/-- No node starts a pass twice. -/
theorem startNodes_nodup (g : Graph) (c : Catalogue σ) : ((ofGraph g).startNodes c).Nodup :=
  (startNodes_sublist_keys g c).nodup (ofGraph g).nodes.nodup

theorem startNodes_sublist (g : Graph) (c : Catalogue σ) :
    ((ofGraph g).startNodes c).Sublist (g.nodes.map (·.id)) := by
  refine (startNodes_sublist_keys g c).trans ?_
  rw [keys_ofGraph]
  exact eraseDupsBy_sublist _

theorem mem_startNodes_iff {g : Graph} {c : Catalogue σ} {id : NodeId} :
    id ∈ (ofGraph g).startNodes c ↔
      ∃ n d, g.node? id = some n ∧ c.get? n.kind = some d ∧ d.isStart = true := by
  simp only [startNodes_eq_filter, List.mem_filter, Option.any_eq_true]
  constructor
  · rintro ⟨-, n, hn, d, hd, hstart⟩
    exact ⟨n, d, hn, hd, hstart⟩
  · rintro ⟨n, d, hn, hd, hstart⟩
    exact ⟨Table.mem_keys_iff.2 ⟨n, (node?_ofGraph g id).trans hn⟩, n, hn, d, hd, hstart⟩

/-- Start nodes are nodes of the graph, and their kinds are frame triggers. -/
theorem triggers_startNodes (g : Graph) (c : Catalogue σ) :
    ∀ id ∈ (ofGraph g).startNodes c, ∃ n d, (ofGraph g).node? id = some n ∧
      c.get? n.kind = some d ∧ d.frameTrigger = true := by
  intro id hid
  rcases mem_startNodes_iff.1 hid with ⟨n, d, hn, hd, hstart⟩
  rw [Definition.isStart, Bool.and_eq_true] at hstart
  exact ⟨n, d, by rw [node?_ofGraph]; exact hn, hd, hstart.1⟩

end Wiring

/-- Whatever an executor looks up under an id is what a search through its graph finds.  Its nodes are
listed once each, as they were declared first, and so are those that start a pass: the triggers among them
that no control flow enters. -/
theorem Executor.wired_as_declared {σ : Type} (g : Graph) (c : Catalogue σ) (config : ExecutorConfig)
    (id : NodeId) :
    (Wiring.ofGraph g).node? id = g.node? id ∧
    (Wiring.ofGraph g).connectionsFrom id = g.connectionsFrom id ∧
    (Wiring.ofGraph g).connectionsTo id = g.connectionsTo id ∧
    (Wiring.ofGraph g).nodes.keys = (g.nodes.map (·.id)).eraseDups ∧
    (ofGraph g c config).1.plan.wiring = Wiring.ofGraph g ∧
    (ofGraph g c config).1.startNodes =
      (g.nodes.map (·.id)).eraseDups.filter fun start =>
        (g.node? start).any fun n => (c.get? n.kind).any fun d =>
          d.frameTrigger && !d.inputs.any fun port => port.type.isControl := by
  refine ⟨Wiring.node?_ofGraph g id, Wiring.connectionsFrom_ofGraph g id,
    Wiring.connectionsTo_ofGraph g id, Wiring.keys_ofGraph g, rfl, ?starts⟩
  case starts =>
    rw [← Wiring.keys_ofGraph]
    exact Wiring.startNodes_eq_filter g c

end GraphScript

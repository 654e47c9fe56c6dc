import GraphScript.Port
import GraphScript.Proofs.WiringLists
import GraphScript.Validation
import Mathlib.Data.List.Nodup

/-!
# IssueFree — what it means that a graph has no issues

- `Graph.Fits` — a connection leads from a declared output to a declared input of a type that goes
  with it, between nodes of known kinds.
- `danglingIssues_eq_nil_iff`, `portIssues_eq_nil_iff` and `nodeIssues_eq_nil_iff` say when each part
  of the examination finds nothing.
- `Graph.contains_of_issues`, `Graph.node?_of_issues` and `Graph.fits_of_issues` put them together: in
  a graph without issues all kinds are known, all nodes are found and all connections fit.
-/

namespace GraphScript

variable {σ : Type}

/-- Control goes to control, and to nothing else. -/
theorem PortType.control_of_canConnectTo {source target : PortType}
    (h : source.canConnectTo target = true) : source = .control ↔ target = .control := by
  cases source <;> cases target <;> simp_all [canConnectTo]

/-- The connection leads from the output `p` to the input `q` of known kinds, which declare these
ports, and what the output offers may go to the input. -/
structure Graph.Fits (g : Graph) (c : Catalogue σ) (conn : Connection)
    (source target : Definition σ) (p q : Port) : Prop where
  leaves : g.definition? c conn.fromNode = some source
  enters : g.definition? c conn.toNode = some target
  output : source.output? conn.fromPort = some p
  input : target.input? conn.toPort = some q
  connects : p.type.canConnectTo q.type = true

/-! ## Where nothing is found -/

theorem danglingIssues_eq_nil_iff {g : Graph} {conn : Connection} :
    danglingIssues g conn = [] ↔
      (∃ n, g.node? conn.fromNode = some n) ∧ ∃ n, g.node? conn.toNode = some n := by
  rw [danglingIssues, List.map_eq_nil_iff, List.filter_eq_nil_iff]
  simp [← Option.isSome_iff_exists, Option.isSome_iff_ne_none]

theorem portIssues_eq_nil_iff {source target : Definition σ} {conn : Connection} :
    portIssues source target conn = [] ↔
      ∃ p q, source.output? conn.fromPort = some p ∧ target.input? conn.toPort = some q ∧
        p.type.canConnectTo q.type = true := by
  unfold portIssues
  cases source.output? conn.fromPort with
  | none => simp
  | some p =>
    cases target.input? conn.toPort with
    | none => simp
    | some q => simp

theorem nodeIssues_eq_nil_iff {c : Catalogue σ} {seen : List NodeId} {ns : List Node} :
    nodeIssues c seen ns = [] ↔
      (∀ n ∈ ns, c.contains n.kind = true ∧ n.id ∉ seen) ∧ (ns.map (·.id)).Nodup := by
  induction ns generalizing seen with
  | nil => simp [nodeIssues]
  | cons n ns ih =>
    by_cases hseen : n.id ∈ seen
    · simp [nodeIssues, hseen]
    · -- The rest is examined with this id among those that were seen.
      have hrest : (∀ m ∈ ns, c.contains m.kind = true ∧ m.id ∉ n.id :: seen) ↔
          (∀ m ∈ ns, c.contains m.kind = true ∧ m.id ∉ seen) ∧ n.id ∉ ns.map (·.id) := by
        simp only [List.mem_cons, not_or, List.mem_map, not_exists, not_and]
        constructor
        · intro h
          refine ⟨fun m hm => ⟨(h m hm).1, (h m hm).2.2⟩, ?_⟩
          intro m hm hid
          exact (h m hm).2.1 hid
        · rintro ⟨hknown, hfresh⟩ m hm
          exact ⟨(hknown m hm).1, hfresh m hm, (hknown m hm).2⟩
      rw [nodeIssues, if_neg hseen, List.append_eq_nil_iff, ih, hrest, List.map_cons,
        List.nodup_cons, List.forall_mem_cons]
      cases c.contains n.kind with
      | true => simp [hseen, and_assoc]
      | false => simp

/-! ## Graphs without issues -/

namespace Graph

variable {g : Graph} {c : Catalogue σ}

theorem definition?_eq_some_iff {id : NodeId} {d : Definition σ} :
    g.definition? c id = some d ↔ ∃ n, g.node? id = some n ∧ c.get? n.kind = some d :=
  Option.bind_eq_some_iff

theorem issues_eq_nil_iff : g.issues c = [] ↔
    nodeIssues c [] g.nodes = [] ∧ ∀ conn ∈ g.connections, connectionIssues g c conn = [] := by
  rw [issues, List.append_eq_nil_iff, List.flatMap_eq_nil_iff]

theorem contains_of_issues (h : g.issues c = []) {id : NodeId} {n : Node}
    (hn : g.node? id = some n) : ∃ d, g.definition? c id = some d ∧ c.get? n.kind = some d := by
  have hnodes := nodeIssues_eq_nil_iff.1 (issues_eq_nil_iff.1 h).1
  rcases Table.contains_iff.1 (hnodes.1 n (mem_of_node? hn)).1 with ⟨d, hd⟩
  exact ⟨d, definition?_eq_some_iff.2 ⟨n, hn, hd⟩, hd⟩

/-- No two nodes have the same id, so each one is found. -/
theorem node?_of_issues (h : g.issues c = []) {n : Node} (hn : n ∈ g.nodes) :
    g.node? n.id = some n := by
  have hnodup := (nodeIssues_eq_nil_iff.1 (issues_eq_nil_iff.1 h).1).2
  cases hfound : g.node? n.id with
  | none =>
    have hnot := List.find?_eq_none.1 hfound n hn
    simp at hnot
  | some m =>
    have hid : m.id = n.id := id_of_node? hfound
    rw [List.inj_on_of_nodup_map hnodup (mem_of_node? hfound) hn hid]

theorem fits_of_issues (h : g.issues c = []) {conn : Connection} (hconn : conn ∈ g.connections) :
    ∃ source target p q, g.Fits c conn source target p q := by
  have hissues := (issues_eq_nil_iff.1 h).2 conn hconn
  unfold connectionIssues at hissues
  split at hissues
  · rename_i hdangling
    -- Both ends are there, so their kinds are known and the ports were looked at.
    rcases danglingIssues_eq_nil_iff.1 hdangling with ⟨⟨m, hm⟩, n, hn⟩
    rcases contains_of_issues h hm with ⟨source, hsource, -⟩
    rcases contains_of_issues h hn with ⟨target, htarget, -⟩
    rw [hsource, htarget] at hissues
    rcases portIssues_eq_nil_iff.1 hissues with ⟨p, q, hp, hq, hconnects⟩
    exact ⟨source, target, p, q, hsource, htarget, hp, hq, hconnects⟩
  · rename_i hdangling
    exact absurd hissues hdangling

end Graph

end GraphScript

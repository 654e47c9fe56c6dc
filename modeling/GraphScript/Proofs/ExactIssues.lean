import GraphScript.Proofs.IssueFree

/-!
# ExactIssues — the examination of a graph finds its defects and nothing else

An examination passes over some checks after others have failed: a repeated node is not looked up in the
catalogue, and the ports of a connection are compared only where both of its ends have definitions.

- `Graph.WellFormed` — what the author of a graph should have written;
- `Graph.Fault` and `Graph.Defect` — what an issue says of a connection, or of a graph;
- `Graph.mem_nodeIssues_iff` and `mem_connectionIssues_iff` — each part of the examination reports exactly the
  defects that it looks for, however many others there are;
- `Graph.exactIssues` — the whole of it: when nothing is found, what is found, and how often.
-/

namespace GraphScript

variable {σ : Type}

namespace Graph

/-- Nodes have ids of their own and known kinds, and connections fit. -/
structure WellFormed (g : Graph) (c : Catalogue σ) : Prop where
  distinct : (g.nodes.map (·.id)).Nodup
  known : ∀ n ∈ g.nodes, ∃ d, c.get? n.kind = some d
  fits : ∀ conn ∈ g.connections, ∃ source target p q, g.Fits c conn source target p q

/-- What the issue says of the connection is true. Ports are judged between known kinds only. -/
inductive Fault (g : Graph) (c : Catalogue σ) (conn : Connection) : Issue → Prop where
  | dangling {id : NodeId} (hend : id = conn.fromNode ∨ id = conn.toNode)
      (hmissing : ∀ n ∈ g.nodes, n.id ≠ id) : Fault g c conn (.dangling conn.id id)
  | undeclaredOutput {source target : Definition σ}
      (hsource : g.definition? c conn.fromNode = some source)
      (htarget : g.definition? c conn.toNode = some target)
      (hport : source.output? conn.fromPort = none) :
      Fault g c conn (.unknownPort conn.id conn.fromNode conn.fromPort)
  | undeclaredInput {source target : Definition σ}
      (hsource : g.definition? c conn.fromNode = some source)
      (htarget : g.definition? c conn.toNode = some target)
      (hport : target.input? conn.toPort = none) :
      Fault g c conn (.unknownPort conn.id conn.toNode conn.toPort)
  | incompatible {source target : Definition σ} {p q : Port}
      (hsource : g.definition? c conn.fromNode = some source)
      (htarget : g.definition? c conn.toNode = some target)
      (hp : source.output? conn.fromPort = some p) (hq : target.input? conn.toPort = some q)
      (htypes : p.type.canConnectTo q.type = false) :
      Fault g c conn (.incompatiblePorts conn.id p.type q.type)

/-- What the issue says of the graph is true. Under an id that repeats, the node that was declared first
is judged by its kind. -/
inductive Defect (g : Graph) (c : Catalogue σ) : Issue → Prop where
  | unknownKind {n : Node} (hnode : g.node? n.id = some n) (hkind : c.get? n.kind = none) :
      Defect g c (.unknownKind n.id n.kind)
  | duplicateNode {id : NodeId} (hcount : 2 ≤ (g.nodes.map (·.id)).count id) :
      Defect g c (.duplicateNode id)
  | connection {conn : Connection} {e : Issue} (hconn : conn ∈ g.connections)
      (hfault : g.Fault c conn e) : Defect g c e

end Graph

def Issue.isOfNode : Issue → Bool
  | .unknownKind .. | .duplicateNode .. => true
  | .dangling .. | .unknownPort .. | .incompatiblePorts .. => false

/-- Issues of one connection: at most one for each missing end, at most one for each undeclared port, or
one about types. -/
inductive Connection.AtMostOnce (conn : Connection) (issues : List Issue) : Prop where
  | dangling (h : issues.Sublist [.dangling conn.id conn.fromNode, .dangling conn.id conn.toNode])
  | unknownPort (h : issues.Sublist [.unknownPort conn.id conn.fromNode conn.fromPort,
      .unknownPort conn.id conn.toNode conn.toPort])
  | incompatible {source target : PortType}
      (h : issues = [.incompatiblePorts conn.id source target])

/-- The issues are exactly those of the graph.

- There are none just if the graph is well-formed.
- A defect is reported, and what is reported is a defect.
- Each connection has its own share of the reports, with at most one for each end. -/
structure Graph.ExactIssues (g : Graph) (c : Catalogue σ) (issues : List Issue) : Prop where
  empty : issues = [] ↔ g.WellFormed c
  mem : ∀ e, e ∈ issues ↔ g.Defect c e
  shares : ∃ (ofNodes : List Issue) (ofConnection : Connection → List Issue),
    issues = ofNodes ++ g.connections.flatMap ofConnection ∧
    (∀ e ∈ ofNodes, e.isOfNode = true) ∧
    ∀ conn ∈ g.connections, conn.AtMostOnce (ofConnection conn)

/-! ## Nodes -/

section Nodes

variable {c : Catalogue σ} {seen : List NodeId} {ns : List Node} {id : NodeId}

/-- What is said of the first node, and how the examination goes on behind it. -/
theorem mem_nodeIssues_cons {n : Node} {e : Issue} :
    e ∈ nodeIssues c seen (n :: ns) ↔
      n.id ∈ seen ∧ (e = .duplicateNode n.id ∨ e ∈ nodeIssues c seen ns) ∨
      n.id ∉ seen ∧ (c.get? n.kind = none ∧ e = .unknownKind n.id n.kind ∨
        e ∈ nodeIssues c (n.id :: seen) ns) := by
  rw [nodeIssues]
  by_cases hseen : n.id ∈ seen
  · simp [hseen]
  · cases hkind : c.contains n.kind with
    | true =>
      rcases Table.contains_iff.1 hkind with ⟨d, hd⟩
      simp [hseen, hd]
    | false => simp [hseen, Table.contains_eq_false_iff.1 hkind]

/-- The first part of the report is about nodes only. -/
theorem isOfNode_of_mem_nodeIssues {e : Issue} (h : e ∈ nodeIssues c seen ns) :
    e.isOfNode = true := by
  induction ns generalizing seen with
  | nil => cases h
  | cons n ns ih =>
    rcases mem_nodeIssues_cons.1 h with ⟨-, rfl | h⟩ | ⟨-, ⟨-, rfl⟩ | h⟩
    · rfl
    · exact ih h
    · rfl
    · exact ih h

/-- An id is reported if it was seen before and comes again, or if it comes twice. -/
theorem duplicateNode_mem_nodeIssues_iff :
    .duplicateNode id ∈ nodeIssues c seen ns ↔
      id ∈ seen ∧ id ∈ ns.map (·.id) ∨ 2 ≤ (ns.map (·.id)).count id := by
  induction ns generalizing seen with
  | nil => simp [nodeIssues]
  | cons n ns ih =>
    rw [mem_nodeIssues_cons, ih, ih, List.map_cons, List.count_cons]
    by_cases hid : n.id = id
    · subst hid
      by_cases hseen : n.id ∈ seen
      · simp [hseen]
      · -- The first node under the id is in order. Any further one is not.
        have hcount : n.id ∈ ns.map (·.id) ↔ 0 < (ns.map (·.id)).count n.id :=
          List.count_pos_iff.symm
        simp only [hseen, hcount, false_and, false_or, not_false_eq_true, true_and, reduceCtorEq,
          and_false, List.mem_cons_self, beq_self_eq_true, if_true]
        omega
    · by_cases hseen : n.id ∈ seen
      · simp [hseen, hid, Ne.symm hid]
      · simp [hseen, hid, Ne.symm hid]

/-- A kind is looked up for the first node under an id, if that id is new. -/
theorem unknownKind_mem_nodeIssues_iff {kind : KindName} :
    .unknownKind id kind ∈ nodeIssues c seen ns ↔
      id ∉ seen ∧ ∃ n, ns.find? (·.id = id) = some n ∧ n.kind = kind ∧ c.get? kind = none := by
  induction ns generalizing seen with
  | nil => simp [nodeIssues]
  | cons n ns ih =>
    rw [mem_nodeIssues_cons, ih, ih, List.find?_cons]
    by_cases hid : n.id = id
    · subst hid
      by_cases hseen : n.id ∈ seen
      · simp [hseen]
      · -- No node behind this one is the first under its id.
        simp only [hseen, false_and, false_or, not_false_eq_true, true_and, List.mem_cons_self,
          not_true_eq_false, or_false, decide_true, Option.some.injEq, exists_eq_left',
          Issue.unknownKind.injEq]
        constructor
        · rintro ⟨hnone, rfl⟩
          exact ⟨rfl, hnone⟩
        · rintro ⟨rfl, hnone⟩
          exact ⟨hnone, rfl⟩
    · by_cases hseen : n.id ∈ seen
      · simp [hseen, hid, Ne.symm hid]
      · simp [hseen, hid, Ne.symm hid]

end Nodes

/-! ## Connections -/

section Connections

variable {g : Graph} {c : Catalogue σ} {conn : Connection} {e : Issue}

theorem Graph.node?_eq_none_iff {id : NodeId} : g.node? id = none ↔ ∀ n ∈ g.nodes, n.id ≠ id := by
  simp [node?]

/-- An end is reported just if no node has its id. -/
theorem mem_danglingIssues_iff : e ∈ danglingIssues g conn ↔
    ∃ id, (id = conn.fromNode ∨ id = conn.toNode) ∧ (∀ n ∈ g.nodes, n.id ≠ id) ∧
      e = .dangling conn.id id := by
  simp only [danglingIssues, List.mem_map, List.mem_filter, List.mem_cons, List.not_mem_nil, or_false,
    Option.isNone_iff_eq_none, Graph.node?_eq_none_iff]
  constructor
  · rintro ⟨id, ⟨hend, hmissing⟩, rfl⟩
    exact ⟨id, hend, hmissing, rfl⟩
  · rintro ⟨id, hend, hmissing, rfl⟩
    exact ⟨id, ⟨hend, hmissing⟩, rfl⟩

theorem danglingIssues_of_definitions {source target : Definition σ}
    (hsource : g.definition? c conn.fromNode = some source)
    (htarget : g.definition? c conn.toNode = some target) : danglingIssues g conn = [] := by
  rcases Graph.definition?_eq_some_iff.1 hsource with ⟨m, hm, -⟩
  rcases Graph.definition?_eq_some_iff.1 htarget with ⟨n, hn, -⟩
  exact danglingIssues_eq_nil_iff.2 ⟨⟨m, hm⟩, n, hn⟩

/-- Between known kinds only the ports are judged. -/
theorem connectionIssues_of_definitions {source target : Definition σ}
    (hsource : g.definition? c conn.fromNode = some source)
    (htarget : g.definition? c conn.toNode = some target) :
    connectionIssues g c conn = portIssues source target conn := by
  simp only [connectionIssues, danglingIssues_of_definitions hsource htarget, hsource, htarget]

/-- Ports are looked at where both kinds are known. Otherwise missing ends are all that is reported. -/
theorem connectionIssues_cases (g : Graph) (c : Catalogue σ) (conn : Connection) :
    connectionIssues g c conn = danglingIssues g conn ∨
      ∃ source target, g.definition? c conn.fromNode = some source ∧
        g.definition? c conn.toNode = some target ∧
        connectionIssues g c conn = portIssues source target conn := by
  unfold connectionIssues
  cases danglingIssues g conn with
  | cons e issues => exact Or.inl rfl
  | nil =>
    cases g.definition? c conn.fromNode with
    | none => exact Or.inl rfl
    | some source =>
      cases g.definition? c conn.toNode with
      | none => exact Or.inl rfl
      | some target => exact Or.inr ⟨source, target, rfl, rfl, rfl⟩

/-- Types are judged where both ports are declared, and undeclared ports where they are not. -/
theorem mem_portIssues_iff {source target : Definition σ} : e ∈ portIssues source target conn ↔
    (source.output? conn.fromPort = none ∧ e = .unknownPort conn.id conn.fromNode conn.fromPort) ∨
    (target.input? conn.toPort = none ∧ e = .unknownPort conn.id conn.toNode conn.toPort) ∨
    ∃ p q, source.output? conn.fromPort = some p ∧ target.input? conn.toPort = some q ∧
      p.type.canConnectTo q.type = false ∧ e = .incompatiblePorts conn.id p.type q.type := by
  unfold portIssues
  cases source.output? conn.fromPort with
  | none => cases target.input? conn.toPort <;> simp
  | some p =>
    cases target.input? conn.toPort with
    | none => simp
    | some q => cases htypes : p.type.canConnectTo q.type <;> simp [htypes]

/-- A connection is reported with its faults and nothing else. -/
theorem mem_connectionIssues_iff : e ∈ connectionIssues g c conn ↔ g.Fault c conn e := by
  constructor
  · intro he
    rcases connectionIssues_cases g c conn with heq | ⟨source, target, hsource, htarget, heq⟩
    · rw [heq] at he
      rcases mem_danglingIssues_iff.1 he with ⟨id, hend, hmissing, rfl⟩
      exact .dangling hend hmissing
    · rw [heq] at he
      rcases mem_portIssues_iff.1 he with ⟨hport, rfl⟩ | ⟨hport, rfl⟩ | ⟨p, q, hp, hq, htypes, rfl⟩
      · exact .undeclaredOutput hsource htarget hport
      · exact .undeclaredInput hsource htarget hport
      · exact .incompatible hsource htarget hp hq htypes
  · intro hfault
    cases hfault with
    | dangling hend hmissing =>
      have hmem := mem_danglingIssues_iff.2 ⟨_, hend, hmissing, rfl⟩
      rcases connectionIssues_cases g c conn with heq | ⟨source, target, hsource, htarget, -⟩
      · rw [heq]
        exact hmem
      · -- Where both kinds are known, no end is missing.
        rw [danglingIssues_of_definitions hsource htarget] at hmem
        cases hmem
    | undeclaredOutput hsource htarget hport =>
      rw [connectionIssues_of_definitions hsource htarget, mem_portIssues_iff]
      exact Or.inl ⟨hport, rfl⟩
    | undeclaredInput hsource htarget hport =>
      rw [connectionIssues_of_definitions hsource htarget, mem_portIssues_iff]
      exact Or.inr (Or.inl ⟨hport, rfl⟩)
    | incompatible hsource htarget hp hq htypes =>
      rw [connectionIssues_of_definitions hsource htarget, mem_portIssues_iff]
      exact Or.inr (Or.inr ⟨_, _, hp, hq, htypes, rfl⟩)

/-- Missing ends are reported once each, even if both are the same. -/
theorem atMostOnce_danglingIssues (g : Graph) (conn : Connection) :
    conn.AtMostOnce (danglingIssues g conn) :=
  .dangling ((List.filter_sublist (l := [conn.fromNode, conn.toNode])).map (Issue.dangling conn.id))

theorem atMostOnce_portIssues (source target : Definition σ) (conn : Connection) :
    conn.AtMostOnce (portIssues source target conn) := by
  unfold portIssues
  split
  · split
    · exact .dangling (List.nil_sublist _)
    · exact .incompatible rfl
  · -- One report for each port that is not declared, in this order.
    have hreport : ∀ (undeclared : Bool) (e : Issue), (if undeclared then [e] else []).Sublist [e] := by
      intro undeclared e
      cases undeclared <;> simp
    exact .unknownPort ((hreport _ _).append (hreport _ _))

/-- No connection is reported twice for the same thing. -/
theorem atMostOnce_connectionIssues (g : Graph) (c : Catalogue σ) (conn : Connection) :
    conn.AtMostOnce (connectionIssues g c conn) := by
  rcases connectionIssues_cases g c conn with heq | ⟨source, target, -, -, heq⟩
  · rw [heq]
    exact atMostOnce_danglingIssues g conn
  · rw [heq]
    exact atMostOnce_portIssues source target conn

end Connections

/-! ## Graphs -/

namespace Graph

variable {g : Graph} {c : Catalogue σ}

/-- Nodes are reported with their defects and nothing else. -/
theorem mem_nodeIssues_iff {e : Issue} :
    e ∈ nodeIssues c [] g.nodes ↔ g.Defect c e ∧ e.isOfNode = true := by
  constructor
  · intro he
    have hnode := isOfNode_of_mem_nodeIssues he
    refine ⟨?_, hnode⟩
    cases e with
    | unknownKind id kind =>
      rcases (unknownKind_mem_nodeIssues_iff.1 he).2 with ⟨n, hn, rfl, hkind⟩
      have hid : n.id = id := id_of_node? hn
      subst hid
      exact .unknownKind hn hkind
    | duplicateNode id =>
      rcases duplicateNode_mem_nodeIssues_iff.1 he with ⟨hseen, -⟩ | hcount
      · cases hseen
      · exact .duplicateNode hcount
    | dangling => cases hnode
    | unknownPort => cases hnode
    | incompatiblePorts => cases hnode
  · rintro ⟨hdefect, hnode⟩
    cases hdefect with
    | unknownKind hn hkind =>
      exact unknownKind_mem_nodeIssues_iff.2 ⟨List.not_mem_nil, _, hn, rfl, hkind⟩
    | duplicateNode hcount => exact duplicateNode_mem_nodeIssues_iff.2 (Or.inr hcount)
    | connection _ hfault => cases hfault <;> cases hnode

/-- There are no issues just if the graph is well-formed. -/
theorem issues_eq_nil_iff_wellFormed : g.issues c = [] ↔ g.WellFormed c := by
  constructor
  · intro h
    have hnodes := nodeIssues_eq_nil_iff.1 (issues_eq_nil_iff.1 h).1
    refine ⟨hnodes.2, ?_, fun conn hconn => fits_of_issues h hconn⟩
    exact fun n hn => Table.contains_iff.1 (hnodes.1 n hn).1
  · rintro ⟨hdistinct, hknown, hfits⟩
    refine issues_eq_nil_iff.2 ⟨nodeIssues_eq_nil_iff.2 ⟨fun n hn => ?_, hdistinct⟩, fun conn hconn => ?_⟩
    · exact ⟨Table.contains_iff.2 (hknown n hn), List.not_mem_nil⟩
    · rcases hfits conn hconn with ⟨source, target, p, q, hfit⟩
      rw [connectionIssues_of_definitions hfit.leaves hfit.enters]
      exact portIssues_eq_nil_iff.2 ⟨p, q, hfit.output, hfit.input, hfit.connects⟩

/-- The issues of every graph are exact. -/
theorem exactIssues (g : Graph) (c : Catalogue σ) : g.ExactIssues c (g.issues c) := by
  constructor
  case empty => exact issues_eq_nil_iff_wellFormed
  case mem =>
    intro e
    rw [issues, List.mem_append, mem_nodeIssues_iff, List.mem_flatMap]
    constructor
    · rintro (⟨hdefect, -⟩ | ⟨conn, hconn, he⟩)
      · exact hdefect
      · exact .connection hconn (mem_connectionIssues_iff.1 he)
    · intro hdefect
      cases hdefect with
      | unknownKind hn hkind => exact Or.inl ⟨.unknownKind hn hkind, rfl⟩
      | duplicateNode hcount => exact Or.inl ⟨.duplicateNode hcount, rfl⟩
      | connection hconn hfault => exact Or.inr ⟨_, hconn, mem_connectionIssues_iff.2 hfault⟩
  case shares =>
    refine ⟨nodeIssues c [] g.nodes, connectionIssues g c, rfl, ?_, ?_⟩
    · exact fun e he => isOfNode_of_mem_nodeIssues he
    · exact fun conn _ => atMostOnce_connectionIssues g c conn

end Graph

end GraphScript

import GraphScript.Proofs.ConnectionEvents
import GraphScript.Proofs.Pushes
import GraphScript.Proofs.StandardKinds

/-!
# WiredBranches — what a comparison says to the branch that it is wired to

To resolve a data connection its source is pulled, and a source that is pulled gets no inputs. So the
comparison that decides a branch compares its own properties, even where something is wired to it.

- `Definition.Offers` — what a node leaves at a port whenever it runs without inputs;
- `Plan.input_of_brings` — where that port alone is wired to an input, every push of the target gets this
  value there, whether sources run anew or are kept;
- `Executor.branch_of_comparison` — so a branch goes the way that the properties of its comparison say;
- `Executor.wired_operand_ignored` — even if the comparison itself was pushed with other operands and came
  out differently.
-/

namespace GraphScript

variable {σ : Type}

/-- Whenever the node runs without inputs, it leaves the value at the port. -/
def Definition.Offers (d : Definition σ) (node : Node) (port : PortId) (value : Value) : Prop :=
  ∀ world memory, (d.run ⟨world, {}, node, memory⟩).outputs.bind (·.get? port) = some value

namespace Pass

variable {p : Plan σ} {s : Pass σ} {source : Node} {d : Definition σ} {conn : Connection}
  {id : NodeId} {port : PortId} {value : Value}

/-! ## What is kept of a source -/

/-- The connection leaves a data port of the source, at which the source offers the value. -/
structure Brings (p : Plan σ) (conn : Connection) (source : Node) (d : Definition σ) (value : Value) :
    Prop where
  node : p.wiring.node? conn.fromNode = some source
  definition : p.catalogue.get? source.kind = some d
  data : d.isControlOutput conn.fromPort = false
  offers : d.Offers source conn.fromPort value

/-- Whatever is kept of the node has the value at the port. -/
def KeepsAt (id : NodeId) (port : PortId) (value : Value) (s : Pass σ) : Prop :=
  ∀ outputs, s.pulled.get? id = some outputs → outputs.bind (·.get? port) = some value

theorem keepsAt_call (hs : KeepsAt id port value s) (d : Definition σ) (node : Node) (cause : Cause)
    (inputs : Inputs) : KeepsAt id port value (s.call d node cause inputs).2 := by
  unfold KeepsAt
  rw [call_pulled]
  exact hs

/-- Run now or kept, the source has the value at the port. -/
theorem keepsAt_pull (hoffers : d.Offers source port value) (hs : KeepsAt source.id port value s) :
    KeepsAt source.id port value (pull p d source s).2 ∧
      (pull p d source s).1.bind (·.get? port) = some value := by
  have hcall : (s.call d source .pulled {}).1.bind (·.get? port) = some value :=
    hoffers s.world ((s.memories.get? source.id).getD none)
  unfold pull
  split
  · split
    · rename_i outputs houtputs
      exact ⟨hs, hs outputs houtputs⟩
    · refine ⟨?_, hcall⟩
      intro outputs houtputs
      rw [Table.get?_insert, if_pos rfl, Option.some.injEq] at houtputs
      rw [← houtputs]
      exact hcall
  · exact ⟨keepsAt_call hs d source .pulled {}, hcall⟩

theorem keepsAt_pull_other (hother : source.id ≠ id) (hs : KeepsAt id port value s) :
    KeepsAt id port value (pull p d source s).2 := by
  refine pull_invariant (I := KeepsAt id port value) hs (keepsAt_call hs d source .pulled {}) ?_
  intro t outputs ht outputs' hget
  rw [Table.get?_insert, if_neg hother] at hget
  exact ht outputs' hget

/-- All through a pass, what is kept of the source has the value. -/
theorem Brings.walkInvariant (h : Brings p conn source d value) (hkeyed : p.wiring.Keyed) :
    WalkInvariant p (KeepsAt source.id conn.fromPort value) := by
  constructor
  case noted => exact fun s n _ hs => hs
  case entered =>
    intro s node d' depth inputs _ _ _ hs
    exact keepsAt_call (s := { s with executed := node.id :: s.executed }) hs d' node _ inputs
  case resolved =>
    intro s _ conn' other d' _ hother hd' _ hs
    by_cases hid : other.id = source.id
    · -- It is the source itself, which is found in one place only.
      rw [← hkeyed _ _ hother, hid, hkeyed _ _ h.node, h.node, Option.some.injEq] at hother
      subst hother
      obtain rfl : d' = d := Option.some.inj (hd'.symm.trans h.definition)
      exact (keepsAt_pull h.offers hs).1
    · exact keepsAt_pull_other hid hs
  case followed => exact fun s conn depth _ _ _ hs => hs

/-! ## What is delivered -/

/-- A connection delivers to its own port only. -/
theorem get?_deliver_other (hport : conn.toPort ≠ port) (state : Inputs × Pass σ) :
    (deliver p state conn).1.get? port = state.1.get? port := by
  rcases state with ⟨inputs, s⟩
  dsimp only [deliver]
  split
  · rfl
  · split
    · rfl
    · split
      · rfl
      · split
        · rw [Inputs.insert, Inputs.get?, Table.get?_insert, if_neg hport]
          rfl
        · rfl

theorem get?_foldl_deliver_other {conns : List Connection}
    (hports : ∀ conn ∈ conns, conn.toPort ≠ port) (state : Inputs × Pass σ) :
    (conns.foldl (deliver p) state).1.get? port = state.1.get? port :=
  List.foldlRecOn (motive := fun r : Inputs × Pass σ => r.1.get? port = state.1.get? port) conns
    (deliver p) rfl fun r hr conn hconn => (get?_deliver_other (hports conn hconn) r).trans hr

/-- The connection delivers the value. -/
theorem Brings.get?_deliver (h : Brings p conn source d value) {state : Inputs × Pass σ}
    (hs : KeepsAt source.id conn.fromPort value state.2) :
    (deliver p state conn).1.get? conn.toPort = some value := by
  rcases state with ⟨inputs, s⟩
  have hpulled := (keepsAt_pull (p := p) h.offers hs).2
  simp only [deliver, h.node, h.definition, h.data, Bool.false_eq_true, if_false, hpulled]
  rw [Inputs.insert, Inputs.get?, Table.get?_insert, if_pos rfl]

/-- The connections before it and behind it lead to other ports, so what it brings arrives. -/
theorem Brings.get?_assemble (h : Brings p conn source d value) (hkeyed : p.wiring.Keyed)
    {target : Node} (hsole : (p.wiring.connectionsTo target.id).filter (·.toPort = port) = [conn])
    (hs : KeepsAt source.id conn.fromPort value s) :
    (assemble p target s).1.get? port = some value := by
  rcases List.filter_eq_cons_iff.1 hsole with ⟨before, after, hconns, -, hport, hafter⟩
  obtain rfl : conn.toPort = port := of_decide_eq_true hport
  have hkept : KeepsAt source.id conn.fromPort value (before.foldl (deliver p) ({}, s)).2 := by
    refine List.foldlRecOn (motive := fun r : Inputs × Pass σ =>
      KeepsAt source.id conn.fromPort value r.2) before (deliver p) hs ?_
    intro r hr conn' hconn'
    have hinto : conn' ∈ p.wiring.connectionsTo target.id := by
      rw [hconns]
      exact List.mem_append_left _ hconn'
    exact (h.walkInvariant hkeyed).deliver hinto r hr
  have hothers : ∀ conn' ∈ after, conn'.toPort ≠ conn.toPort := by
    simpa using List.filter_eq_nil_iff.1 hafter
  rw [assemble, hconns, List.foldl_append, List.foldl_cons, get?_foldl_deliver_other hothers]
  exact h.get?_deliver hkept

/-! ## What pushes get -/

def PushedWith (id : NodeId) (port : PortId) (value : Value) (s : Pass σ) : Prop :=
  ∀ call ∈ s.calls, call.isPush = true → call.node.id = id → call.inputs.get? port = some value

/-- At every place the value stands at the port, since no other connection leads there. -/
theorem Brings.placeInvariant (h : Brings p conn source d value) (hkeyed : p.wiring.Keyed)
    (hsole : (p.wiring.connectionsTo id).filter (·.toPort = port) = [conn]) :
    PlaceInvariant p (fun node inputs _ => node.id = id → inputs.get? port = some value)
      (fun s => KeepsAt source.id conn.fromPort value s ∧ PushedWith id port value s) := by
  have hwalk := h.walkInvariant hkeyed
  constructor
  case noted => exact fun s n _ hs => hs
  case entered =>
    rintro s node d' depth inputs - - hinputs ⟨hkept, hpushed⟩
    refine ⟨keepsAt_call (s := { s with executed := node.id :: s.executed }) hkept d' node _ inputs, ?_⟩
    intro call hcall hpush hid
    rw [enter_calls, List.mem_cons] at hcall
    rcases hcall with rfl | hcall
    · exact hinputs hid
    · exact hpushed call hcall hpush hid
  case arrived =>
    rintro s conn' depth target - - - ⟨hkept, hpushed⟩
    have hfollowed : KeepsAt source.id conn.fromPort value (s.record (.followed conn' depth)) := hkept
    refine ⟨⟨hwalk.assemble target hfollowed, ?_⟩, ?_⟩
    · intro call hcall hpush hid
      -- On the way to the target there are only pulls.
      rcases (pullSteps_arrive conn' depth target).isPush_eq_false hcall with hbefore | hpull
      · exact hpushed call hbefore hpush hid
      · cases hpush.symm.trans hpull
    · rintro rfl
      exact h.get?_assemble hkeyed hsole hfollowed

end Pass

/-- A node whose input is wired to one port, at which the source offers a value, is pushed with this value
there, unless it is a start node. -/
theorem Plan.input_of_brings {p : Plan σ} (hkeyed : p.wiring.Keyed) {conn : Connection} {source : Node}
    {d : Definition σ} {value : Value} (h : Pass.Brings p conn source d value) {id : NodeId}
    {port : PortId} (hsole : (p.wiring.connectionsTo id).filter (·.toPort = port) = [conn])
    {starts : List NodeId} (hstarts : id ∉ starts) (world : World σ) (memories : Table NodeId Slot) :
    Pass.PushedWith id port value (p.pass starts world memories) := by
  refine (Plan.invariant_of_places hkeyed (h.placeInvariant hkeyed hsole) starts ?_ ⟨?_, ?_⟩).2
  · rintro id' hid' node s hnode rfl
    rw [hkeyed _ _ hnode] at hstarts
    exact absurd hid' hstarts
  · intro outputs houtputs
    cases houtputs
  · exact fun call hcall => absurd hcall List.not_mem_nil

/-! ## Comparisons and branches -/

/-- What an operand of a comparison is without inputs: the property, or else zero. -/
def Node.ownOperand (n : Node) (port : PortId) : Value := (n.property? port).getD default

/-- What the comparison says of its own properties. An operator that is unknown does not hold. -/
def Node.verdict (n : Node) : Bool :=
  match Comparison.parse? ((n.text? "operator").getD "==") with
  | some op => op.holds (n.ownOperand "a") (n.ownOperand "b")
  | none => false

namespace Kind

/-- A comparison that is pulled offers its verdict on its own properties. -/
theorem offers_compare (node : Node) :
    (compare : Definition σ).Offers node "result" (.bool node.verdict) := by
  intro world memory
  have hown : ∀ port, operand (⟨world, {}, node, memory⟩ : Activation σ) port = node.ownOperand port :=
    fun _ => rfl
  simp only [compare, hown, Node.verdict]
  cases Comparison.parse? ((node.text? "operator").getD "==") <;> rfl

/-- A branch fires as the value at its condition says. -/
theorem outputs_branch {a : Activation σ} {b : Bool}
    (h : a.inputs.get? "condition" = some (.bool b)) :
    ((branch : Definition σ).run a).outputs = some (.fire (if b then "true" else "false")) := by
  have hcondition : a.inputs.boolOr "condition" a.node false = b := by
    rw [Inputs.boolOr, Inputs.value?, h]
    rfl
  simp only [branch, hcondition]
  rfl

end Kind

namespace Executor

/-- Whenever a branch is pushed whose condition is wired by one connection, from the result of a
comparison, it goes the way that the comparison says of its own properties. What is wired to the
comparison, and with what it was pushed, makes no difference. -/
theorem branch_of_comparison [SceneHost σ] (g : Graph) (config : ExecutorConfig)
    (turns : List (Turn σ)) (world : World σ) {call : Call}
    (hcall : call ∈ ((ofGraph g Catalogue.standard config).1.after turns).runs world)
    (hpush : call.isPush = true) (hbranch : call.node.kind = "If") {conn : Connection}
    (hsole : (g.connectionsTo call.node.id).filter (·.toPort = "condition") = [conn])
    (hport : conn.fromPort = "result") {comparison : Node}
    (hnode : g.node? conn.fromNode = some comparison) (hkind : comparison.kind = "Compare") :
    call.outputs = some (.fire (if comparison.verdict then "true" else "false")) := by
  rw [runs_after] at hcall
  generalize ((ofGraph g Catalogue.standard config).1.after turns).memories = memories at hcall
  have hif : (Catalogue.standard : Catalogue σ).get? call.node.kind = some Kind.branch := by
    rw [hbranch]
    exact Catalogue.get?_of_mem_standard (d := Kind.branch) (by simp [Kind.standard])
  have hcompare : (Catalogue.standard : Catalogue σ).get? comparison.kind = some Kind.compare := by
    rw [hkind]
    exact Catalogue.get?_of_mem_standard (d := Kind.compare) (by simp [Kind.standard])
  have hstarts : call.node.id ∉ (Wiring.ofGraph g).startNodes (Catalogue.standard : Catalogue σ) := by
    intro hstart
    rcases Wiring.mem_startNodes_iff.1 hstart with ⟨n, d, hn, hd, hisStart⟩
    have hknown := ((Pass.over_passEnd g Catalogue.standard config world memories).known hcall).1
    obtain rfl : n = call.node := Option.some.inj (hn.symm.trans hknown)
    obtain rfl : d = Kind.branch := Option.some.inj (hd.symm.trans hif)
    cases hisStart
  have hbrings : Pass.Brings (g.plan Catalogue.standard config) conn comparison
      (Kind.compare : Definition σ) (.bool comparison.verdict) := by
    refine ⟨by rw [Wiring.node?_ofGraph]; exact hnode, hcompare, by rw [hport]; rfl, ?_⟩
    rw [hport]
    exact Kind.offers_compare comparison
  have hinput : call.inputs.get? "condition" = some (.bool comparison.verdict) :=
    Plan.input_of_brings (Wiring.keyed_ofGraph g) hbrings
      (by rw [Wiring.connectionsTo_ofGraph]; exact hsole) hstarts world memories call
      (List.mem_reverse.1 hcall) hpush rfl
  -- The condition is a truth value, so the branch needs no more than that.
  rcases Plan.genuine_of_mem_calls (List.mem_reverse.1 hcall) with ⟨d, a, hd, -, hinputs, houtputs⟩
  obtain rfl : d = Kind.branch := Option.some.inj (hd.symm.trans hif)
  rw [houtputs, Kind.outputs_branch (by rw [hinputs]; exact hinput)]

end Executor

/-- Is its first operand `x`? Its own first operand is not. -/
def Node.isX : Node :=
  ((Node.ofKind "same" "Compare").withProperty "a" (.text "y")).withProperty "b" (.text "x")

/-- A text goes through a variable into a comparison, which decides a branch. -/
def Graph.gate : Graph where
  nodes :=
    [.ofKind "start" "OnStart",
     ((Node.ofKind "set" "SetVar").withProperty "varName" (.text "v")).withProperty "value" (.text "x"),
     (Node.ofKind "get" "GetVariable").withProperty "variable" (.text "v"), .isX,
     .ofKind "branch" "If",
     ((Node.ofKind "yes" "SetVar").withProperty "varName" (.text "seen")).withProperty "value"
       (.text "yes")]
  connections :=
    [⟨"1", "start", "exec", "set", "exec"⟩, ⟨"2", "set", "exec", "get", "exec"⟩,
     ⟨"3", "get", "value", "same", "a"⟩, ⟨"4", "same", "result", "branch", "condition"⟩,
     ⟨"5", "branch", "true", "yes", "exec"⟩]

/-- What the connections into an input carried, each time that they were resolved. -/
def Event.carried (id : NodeId) (port : PortId) (events : List Event) : List (Option Value) :=
  events.filterMap fun
    | .resolved conn outputs =>
      if conn.toNode = id ∧ conn.toPort = port then some (outputs.bind (·.get? conn.fromPort)) else none
    | _ => none

namespace Executor

def gateEvents : List Event :=
  (((ofGraph Graph.gate Catalogue.standard).1.after []).execute
    (World.ofHost ({} : HeadlessScene) ⟨fun _ => "", 0⟩)).2.2

/-- The gate has no issues, and its comparison asks whether `x` equals what is wired to it. This was `x`
whenever it was carried there, and yet the branch fires `false`. -/
theorem wired_operand_ignored :
    Graph.gate.issues (Catalogue.standard : Catalogue HeadlessScene) = [] ∧
    (Graph.gate.connectionsTo "branch").filter (·.toPort = "condition") =
      [⟨"4", "same", "result", "branch", "condition"⟩] ∧
    Node.isX ∈ Graph.gate.nodes ∧ Node.isX.id = "same" ∧ Node.isX.kind = "Compare" ∧
    (Graph.gate.connectionsTo "same").map (·.toPort) = ["a"] ∧
    Event.carried "same" "a" gateEvents = [some (.text "x")] ∧
    Node.isX.text? "operator" = none ∧ Comparison.parse? "==" = some .equal ∧
    Comparison.equal.holds (.text "x") (Node.isX.ownOperand "b") = true ∧
    ((Event.calls gateEvents).filter fun call => call.isPush && call.node.kind = "If").map (·.outputs) =
      [some (.fire "false")] := by
  refine ⟨by decide, by decide, ?_, rfl, rfl, by decide, by decide, by decide, by decide, by decide, rfl⟩
  simp [Graph.gate]

/-- The comparison of the gate has `y` of its own, so the branch goes the other way. -/
theorem branch_of_gate : Node.isX.verdict = false ∧
    ∃ call ∈ Event.calls gateEvents, call.isPush = true ∧ call.node.kind = "If" ∧
      call.outputs = some (.fire (if Node.isX.verdict then "true" else "false")) := by
  have hruns : (Event.calls gateEvents).map (fun call => (call.node.id, call.isPush, call.node.kind)) =
      [("start", true, "OnStart"), ("set", true, "SetVar"), ("get", true, "GetVariable"),
        ("get", false, "GetVariable"), ("same", true, "Compare"), ("same", false, "Compare"),
        ("branch", true, "If")] := rfl
  have hbranch : ("branch", true, "If") ∈
      (Event.calls gateEvents).map (fun call => (call.node.id, call.isPush, call.node.kind)) := by
    rw [hruns]
    decide
  rcases List.mem_map.1 hbranch with ⟨call, hcall, heq⟩
  simp only [Prod.mk.injEq] at heq
  rcases heq with ⟨hid, hpush, hkind⟩
  have hsole : (Graph.gate.connectionsTo call.node.id).filter (·.toPort = "condition") =
      [⟨"4", "same", "result", "branch", "condition"⟩] := by
    rw [hid]
    decide
  refine ⟨by decide, call, hcall, hpush, hkind, ?_⟩
  exact branch_of_comparison Graph.gate {} [] _ hcall hpush hkind hsole rfl rfl rfl

end Executor

end GraphScript

import GraphScript.Kind.Standard
import GraphScript.Proofs.PassPairs
import GraphScript.Proofs.Pushes

/-!
# TypedRuns — a graph without issues runs well-typed

Validation looks at the authored lists, a pass at the indices made of them.  In a graph without
issues the pass never looks for anything in vain, and whatever passes a connection passes from a
declared output to a declared input of a type that goes with it.

- `Event.Typed` says so of one event, in view of the events before it;
- `Executor.typed_events` proves it of all events of every pass.
-/

namespace GraphScript

variable {σ : Type}

def Note.isMissing : Note → Bool
  | .kindMissing .. | .targetMissing .. => true
  | _ => false

/-- The event is well-typed, in view of the events before it.

- A run is one of a node of a known kind, every input of it was read at a port where a connection
  leads from that was resolved before, and all that it opens as a push leads to nodes of known kinds.
- A resolved connection leads from a data output to a data input that goes with it.
- A followed connection leads from a control output to control inputs only, and whatever is pulled
  into its target comes from nodes of known kinds.
- A note about something missing can only come from a run. -/
def Event.Typed (g : Graph) (c : Catalogue σ) (before : List Event) : Event → Prop
  | .called call =>
    (g.node? call.node.id = some call.node ∧ ∃ d, c.get? call.node.kind = some d) ∧
      (∀ port value, call.inputs.get? port = some value → ∃ conn outputs,
        conn.toNode = call.node.id ∧ conn.toPort = port ∧
          .resolved conn (some outputs) ∈ before ∧ outputs.get? conn.fromPort = some value) ∧
      (call.isPush = true → ∀ conn ∈ g.connections, conn.fromNode = call.node.id →
        call.Opens c conn.fromPort → ∃ target, g.definition? c conn.toNode = some target)
  | .resolved conn _ => conn ∈ g.connections ∧ ∃ source target p q,
      g.Fits c conn source target p q ∧ p.type ≠ .control ∧ q.type ≠ .control
  | .followed conn _ => conn ∈ g.connections ∧
      (∃ source target p q, g.Fits c conn source target p q ∧
        (p.type = .control → q.type = .control)) ∧
      ∀ into ∈ g.connections, into.toNode = conn.toNode →
        ∃ source, g.definition? c into.fromNode = some source
  | .noted n => n.isMissing = true →
      ∃ kind d, c.get? kind = some d ∧ ∃ a, n ∈ (d.run a).notes

/-- A typed event stays one when more has happened before it. -/
theorem Event.Typed.mono {g : Graph} {c : Catalogue σ} {before after : List Event} {e : Event}
    (h : e.Typed g c before) (hsub : before ⊆ after) : e.Typed g c after := by
  cases e with
  | called call =>
    rcases h with ⟨hknown, hinputs, hopens⟩
    refine ⟨hknown, ?_, hopens⟩
    intro port value hvalue
    rcases hinputs port value hvalue with ⟨conn, outputs, hto, hport, hresolved, hget⟩
    exact ⟨conn, outputs, hto, hport, hsub hresolved, hget⟩
  | _ => exact h

namespace Pass

variable {g : Graph} {c : Catalogue σ} {config : ExecutorConfig} {s : Pass σ}

/-- Everything that has happened is well-typed. -/
abbrev AllTyped (g : Graph) (c : Catalogue σ) (s : Pass σ) : Prop :=
  Each (fun before e => Event.Typed g c before e) s.events

/-- The ports of a connection that leaves a data output. -/
theorem data_of_fits {conn : Connection} {source target d : Definition σ} {p q : Port}
    (hfits : g.Fits c conn source target p q) (hd : g.definition? c conn.fromNode = some d)
    (hport : d.isControlOutput conn.fromPort = false) : p.type ≠ .control ∧ q.type ≠ .control := by
  have hsource : source = d := Option.some.inj (hfits.leaves.symm.trans hd)
  subst hsource
  have hdata : p.type ≠ .control := by
    simpa [Definition.isControlOutput, hfits.output, PortType.isControl] using hport
  refine ⟨hdata, ?_⟩
  intro hcontrol
  exact hdata ((PortType.control_of_canConnectTo hfits.connects).2 hcontrol)

/-- What a pass tells by itself is well-typed. -/
theorem typed_of_tells (hissues : g.issues c = []) {e : Event}
    (h : Tells ⟨Wiring.ofGraph g, c, config⟩ e) (before : List Event) : e.Typed g c before := by
  cases h with
  | kindMissing hnode hkind =>
    -- There is no node of an unknown kind.
    intro _
    rw [Wiring.node?_ofGraph] at hnode
    rcases Graph.contains_of_issues hissues hnode with ⟨d, -, hd⟩
    cases hd.symm.trans hkind
  | targetMissing hconn htarget =>
    -- There is no connection without a target.
    intro _
    rw [Wiring.connectionsFrom_ofGraph, Graph.mem_connectionsFrom] at hconn
    rw [Wiring.node?_ofGraph] at htarget
    rcases Graph.fits_of_issues hissues hconn.1 with ⟨source, target, p, q, hfits⟩
    rcases Graph.definition?_eq_some_iff.1 hfits.enters with ⟨n, hn, -⟩
    cases hn.symm.trans htarget
  | resolved hconn hsource hd hport outputs =>
    rw [Wiring.connectionsTo_ofGraph, Graph.mem_connectionsTo] at hconn
    rw [Wiring.node?_ofGraph] at hsource
    rcases Graph.fits_of_issues hissues hconn.1 with ⟨source, target, p, q, hfits⟩
    have hdefinition := Graph.definition?_eq_some_iff.2 ⟨_, hsource, hd⟩
    exact ⟨hconn.1, source, target, p, q, hfits, data_of_fits hfits hdefinition hport⟩
  | followed hnode hd hconn htarget depth =>
    rw [Wiring.connectionsFrom_ofGraph, Graph.mem_connectionsFrom] at hconn
    rcases Graph.fits_of_issues hissues hconn.1 with ⟨source, target, p, q, hfits⟩
    refine ⟨hconn.1, ⟨source, target, p, q, hfits, ?_⟩, ?_⟩
    · exact (PortType.control_of_canConnectTo hfits.connects).1
    · intro into hinto _
      rcases Graph.fits_of_issues hissues hinto with ⟨source, target, p, q, hfits⟩
      exact ⟨source, hfits.leaves⟩
  | produced id kind count => intro h; cases h
  | nothingToPush id port conn => intro h; cases h
  | nothingToPull id port => intro h; cases h
  | depthLimit limit id target => intro h; cases h

/-- A run of a known kind is well-typed, notes included, if its inputs were delivered. -/
theorem allTyped_call (config : ExecutorConfig) (hissues : g.issues c = []) (hs : AllTyped g c s)
    {node : Node} {d : Definition σ} (hnode : g.node? node.id = some node) (hd : c.get? node.kind = some d)
    (cause : Cause) {inputs : Inputs} (hfed : Fed ⟨Wiring.ofGraph g, c, config⟩ node inputs s) :
    AllTyped g c (s.call d node cause inputs).2 := by
  -- The notes of a run are typed one by one, as notes of a known kind.
  have hnotes : ∀ notes : List Note, notes ⊆ (s.outcome d node inputs).notes →
      Each (fun before e => Event.Typed g c before e) (notes.map .noted ++ s.events) := by
    intro notes
    induction notes with
    | nil => exact fun _ => hs
    | cons n notes ih =>
      intro hsub
      rw [List.cons_subset] at hsub
      exact ⟨fun _ => ⟨node.kind, d, hd, _, hsub.1⟩, ih hsub.2⟩
  rw [AllTyped, call_events]
  rw [← List.map_reverse]
  refine ⟨⟨⟨hnode, d, hd⟩, ?_, ?_⟩, hnotes _ (List.reverse_subset.2 (List.Subset.refl _))⟩
  · intro port value hvalue
    rcases hfed port value hvalue with ⟨conn, outputs, hconn, hport, hresolved, hget⟩
    rw [Wiring.connectionsTo_ofGraph, Graph.mem_connectionsTo] at hconn
    exact ⟨conn, outputs, hconn.2, hport, List.mem_append_right _ hresolved, hget⟩
  · intro _ conn hconn _ _
    rcases Graph.fits_of_issues hissues hconn with ⟨source, target, p, q, hfits⟩
    exact ⟨target, hfits.enters⟩

/-- All events of a pass over a graph without issues are typed. -/
theorem allTyped_pass (config : ExecutorConfig) (hissues : g.issues c = []) (starts : List NodeId)
    (world : World σ) (memories : Table NodeId Slot) :
    AllTyped g c ((⟨Wiring.ofGraph g, c, config⟩ : Plan σ).pass starts world memories) := by
  have hkeyed := Wiring.keyed_ofGraph g
  refine Plan.pass_of_tells ?_ ?_ ?_ starts trivial
  · intro s e htells hs
    exact ⟨typed_of_tells hissues htells _, hs⟩
  · intro s id node d depth inputs hnode hd hfed hs
    have hnode' : g.node? node.id = some node := by
      rw [← Wiring.node?_ofGraph, hkeyed id node hnode]
      exact hnode
    exact allTyped_call config hissues (s := { s with executed := node.id :: s.executed }) hs hnode'
      hd (.pushed depth) hfed
  · intro s id conn source d _ hsource hd _ hs
    have hnode : g.node? source.id = some source := by
      rw [← Wiring.node?_ofGraph, hkeyed conn.fromNode source hsource]
      exact hsource
    have hcall : AllTyped g c (s.call d source .pulled {}).2 :=
      allTyped_call config hissues hs hnode hd .pulled (fed_empty _ _ _)
    -- A result that is kept is no event, so only the run itself counts.
    exact pull_invariant hs hcall fun _ _ ht => ht

end Pass

/-- In every pass over a graph without issues, the start nodes are of known kinds, and everything
that happens is well-typed. -/
theorem Executor.typed_events (g : Graph) (c : Catalogue σ) (config : ExecutorConfig)
    (hissues : g.issues c = []) (turns : List (Turn σ)) (world : World σ) :
    (∀ id ∈ ((ofGraph g c config).1.after turns).startNodes,
      ∃ d, g.definition? c id = some d) ∧
    ∀ before e after,
      (((ofGraph g c config).1.after turns).execute world).2.2 = before ++ e :: after →
        e.Typed g c before := by
  rcases (ofGraph g c config).1.after_plan turns with ⟨hplan, hstarts⟩
  constructor
  · intro id hid
    rw [hstarts] at hid
    rcases Wiring.mem_startNodes_iff.1 hid with ⟨n, d, hn, hd, -⟩
    exact ⟨d, Graph.definition?_eq_some_iff.2 ⟨n, hn, hd⟩⟩
  · intro before e after hevents
    have htyped := Pass.allTyped_pass config hissues (ofGraph g c config).1.startNodes world
      ((ofGraph g c config).1.after turns).memories
    -- The events of an executor are those of the pass, first one first.
    have hreversed : (passEnd g c config world ((ofGraph g c config).1.after turns).memories).events =
        after.reverse ++ e :: before.reverse := by
      have hexecute : (((ofGraph g c config).1.after turns).execute world).2.2 =
          (passEnd g c config world
            ((ofGraph g c config).1.after turns).memories).events.reverse := by
        rw [execute, hplan, hstarts]
        rfl
      rw [hexecute, List.reverse_eq_iff] at hevents
      simpa using hevents
    change Pass.Each _ (passEnd g c config world _).events at htyped
    rw [hreversed] at htyped
    exact htyped.split.mono (List.reverse_subset.2 (List.Subset.refl _))

/-- A variable is read into another one when the play starts. -/
def Graph.relay : Graph where
  nodes := [.ofKind "start" "OnStart", .ofKind "read" "GetVariable", .ofKind "write" "SetVar"]
  connections :=
    [⟨"go", "start", "exec", "write", "exec"⟩, ⟨"carry", "read", "value", "write", "value"⟩]

/-- What the relay writes in its first pass was read at an output that may feed the input. -/
theorem Executor.typed_relay :
    Graph.relay.issues (Catalogue.standard : Catalogue HeadlessScene) = [] ∧
    ∃ conn outputs, conn.toNode = "write" ∧ conn.toPort = "value" ∧
      .resolved conn (some outputs) ∈ (((ofGraph Graph.relay Catalogue.standard).1.after []).execute
        (World.ofHost ({} : HeadlessScene) ⟨fun _ => "", 0⟩)).2.2 ∧
      outputs.get? conn.fromPort = some (.number (.plain 0)) := by
  have hissues : Graph.relay.issues (Catalogue.standard : Catalogue HeadlessScene) = [] := by
    decide
  refine ⟨hissues, ?_⟩
  have hruns : (((ofGraph Graph.relay Catalogue.standard).1.after []).runs
      (World.ofHost ({} : HeadlessScene) ⟨fun _ => "", 0⟩)).map
        (fun call => (call.node.id, call.inputs.get? "value")) =
      [("start", none), ("read", none), ("write", some (.number (.plain 0)))] := rfl
  have hwrite : ("write", some (Value.number (.plain 0))) ∈
      (((ofGraph Graph.relay Catalogue.standard).1.after []).runs
        (World.ofHost ({} : HeadlessScene) ⟨fun _ => "", 0⟩)).map
          (fun call => (call.node.id, call.inputs.get? "value")) := by
    rw [hruns]
    simp
  rcases List.mem_map.1 hwrite with ⟨call, hcall, heq⟩
  rw [Prod.mk.injEq] at heq
  rcases List.mem_filterMap.1 hcall with ⟨e, he, hcalled⟩
  cases e with
  | called call' =>
    cases hcalled
    rcases List.append_of_mem he with ⟨before, after, hevents⟩
    rcases ((typed_events Graph.relay Catalogue.standard {} hissues [] _).2 before _ after
      hevents).2.1 "value" _ heq.2 with ⟨conn, outputs, hto, hport, hresolved, hget⟩
    refine ⟨conn, outputs, hto.trans heq.1, hport, ?_, hget⟩
    rw [hevents]
    exact List.mem_append_left _ hresolved
  | _ => cases hcalled

end GraphScript

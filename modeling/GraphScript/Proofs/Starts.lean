import GraphScript.Proofs.Ticks

/-!
# Starts — nodes that fire once

A node that fires once remembers that it ran, whether it was pushed or pulled.  In a graph without
issues nothing can be wired into it, and from it only control flow; so it runs once in each pass, when
the pass is started with it, and the first of these runs after a reset is the one that fires.

- `Pass.Latched` — what is known of such a node in the middle of a pass;
- `Executor.hasRun_after` — between passes, whether it has run tells whether there was a pass since the
  start or the last reset;
- `StartLaw` and `Executor.startLaw_execute` — the node runs once in every pass, fires in the first one
  only, and its connections are followed just then.

With a depth limit of zero there is no room to follow them (`Executor.followed_shallow`).
-/

namespace GraphScript

variable {σ : Type}

/-! ## Runs of the node -/

namespace Pass

/-- What is known of the node, if it had run or not when the pass began: it has run if it had then or
did so since, and the first run of all fires. -/
structure Latched (ran : Bool) (calls : List Call) (memory : Slot) : Prop where
  memory : memory.hasRun = (ran || !calls.isEmpty)
  runs : Each (fun before call =>
    call.outputs = some (if ran || !before.isEmpty then {} else .fire "exec")) calls

/-- A run of the node keeps what is known: it fires just if it is the first of all. -/
theorem Latched.run {ran : Bool} {calls : List Call} {a : Activation σ}
    (h : Latched ran calls a.memory) (cause : Cause) :
    Latched ran (⟨a.node, cause, a.inputs, (Kind.onStart.run a).outputs⟩ :: calls)
      (Kind.onStart.run a).memory := by
  constructor
  case memory => simp [Kind.memory_onStart]
  case runs => exact ⟨by rw [Kind.outputs_onStart, h.memory], h.runs⟩

end Pass

variable [SceneHost σ]

theorem Catalogue.get?_onStart : (standard : Catalogue σ).get? "OnStart" = some Kind.onStart :=
  get?_of_mem_standard (d := Kind.onStart) (by simp [Kind.standard])

namespace Pass

variable {g : Graph} {config : ExecutorConfig} {node : Node} {s : Pass σ}

/-- So it is known at the end of a pass. -/
theorem latched_passEnd (config : ExecutorConfig) (hnode : g.node? node.id = some node)
    (hkind : node.kind = "OnStart") (world : World σ) (memories : Table NodeId Slot) :
    let s := Executor.passEnd g Catalogue.standard config world memories
    Latched ((memories.get? node.id).getD none).hasRun (s.callsOf node.id) (s.memoryOf node.id) := by
  refine Plan.own_runs (d := Kind.onStart) (Wiring.keyed_ofGraph g) ?_ ?_ ?_ _ ⟨by simp, trivial⟩
  · rw [Wiring.node?_ofGraph]
    exact hnode
  · rw [hkind]
    exact Catalogue.get?_onStart
  · rintro a rfl cause calls h
    exact h.run cause

/-- In a graph without issues, only control flow leaves the node. -/
theorem exec_of_issues (hissues : g.issues (Catalogue.standard : Catalogue σ) = [])
    (hnode : g.node? node.id = some node) (hkind : node.kind = "OnStart") {conn : Connection}
    (hconn : conn ∈ g.connections) (hfrom : conn.fromNode = node.id) : conn.fromPort = "exec" := by
  rcases Graph.fits_of_issues hissues hconn with ⟨source, target, p, q, hfits⟩
  have hleaves := hfits.leaves
  rw [hfrom, Graph.definition?, hnode, Option.bind_some, hkind, Catalogue.get?_onStart] at hleaves
  obtain rfl : Kind.onStart = source := Option.some.inj hleaves
  have hport : p.id = conn.fromPort := by simpa using List.find?_some hfits.output
  obtain rfl : p = .control "exec" := List.mem_singleton.1 (List.mem_of_find?_eq_some hfits.output)
  exact hport.symm

/-- What is known when a pass over a graph without issues is over. -/
structure Begun (g : Graph) (config : ExecutorConfig) (node : Node) (ran : Bool) (s : Pass σ) :
    Prop where
  issues : g.issues (Catalogue.standard : Catalogue σ) = []
  known : g.node? node.id = some node
  starts : node.kind = "OnStart"
  covered : Over g Catalogue.standard config s
  latched : Latched ran (s.callsOf node.id) (s.memoryOf node.id)
  followed : ∀ conn depth, .followed conn depth ∈ s.events ↔
    Leads (g.plan (Catalogue.standard : Catalogue σ) config) s.calls conn depth

namespace Begun

variable {ran : Bool} (h : Begun g config node ran s)

include h

theorem definition? :
    g.definition? (Catalogue.standard : Catalogue σ) node.id = some Kind.onStart :=
  Graph.definition?_eq_some_iff.2 ⟨node, h.known, by rw [h.starts, Catalogue.get?_onStart]⟩

/-- All runs of the node are its start. -/
theorem cause_of_mem {call : Call} (hcall : call ∈ s.calls) (hid : call.node.id = node.id) :
    call.cause = .pushed 0 := by
  have hmem : call ∈ s.calls.reverse := List.mem_reverse.2 hcall
  have hpush : call.isPush = true := by
    refine h.covered.only_pushed ?_ hmem hid
    intro conn hconn hfrom d hd
    obtain rfl : Kind.onStart = d := Option.some.inj (h.definition?.symm.trans hd)
    rw [exec_of_issues h.issues h.known h.starts hconn hfrom]
    rfl
  refine h.covered.cause_of_trigger ?_ hmem hpush ?_
  · exact fun conn hconn => Graph.isTrigger_eq_false_of_issues h.issues hconn
  · rw [hid, Graph.isTrigger, h.definition?]
    rfl

/-- The node runs once, with no inputs: its pass starts with the node once, and it has no other runs
than starts. -/
theorem inputs_eq : (s.calls.reverse.filter (·.node.id = node.id)).map
    (fun call => (call.node.id, call.inputs)) = [(node.id, {})] := by
  let starts := (Wiring.ofGraph g).startNodes (Catalogue.standard : Catalogue σ)
  have hstart : node.id ∈ starts := Wiring.mem_startNodes_iff.2
    ⟨node, Kind.onStart, h.known, by rw [h.starts, Catalogue.get?_onStart], rfl⟩
  have hcount : starts.count node.id = 1 :=
    List.count_eq_one_of_mem (Wiring.startNodes_nodup g _) hstart
  have hsame : s.calls.reverse.filter (·.node.id = node.id) =
      (s.calls.reverse.filter (·.cause = .pushed 0)).filter (·.node.id = node.id) := by
    rw [List.filter_filter]
    refine List.filter_congr ?_
    intro call hcall
    by_cases hid : call.node.id = node.id
    · simp [hid, h.cause_of_mem (List.mem_reverse.1 hcall) hid]
    · simp [hid]
  calc (s.calls.reverse.filter (·.node.id = node.id)).map (fun call => (call.node.id, call.inputs))
      = ((s.calls.reverse.filter (·.cause = .pushed 0)).map
          fun call => (call.node.id, call.inputs)).filter (·.1 = node.id) := by
        rw [hsame, List.filter_map]
        rfl
    _ = (starts.filter (· = node.id)).map fun id => (id, {}) := by
        rw [h.covered.starts_eq, List.filter_map]
        rfl
    _ = [(node.id, {})] := by
        rw [List.filter_eq, hcount]
        rfl

/-- There is one run of the node, without inputs. -/
theorem callsOf_eq :
    ∃ call, s.callsOf node.id = [call] ∧ call.node = node ∧ call.inputs = {} := by
  have hruns := h.inputs_eq
  rw [List.map_eq_singleton_iff] at hruns
  rcases hruns with ⟨call, hcalls, hcall⟩
  have hown : s.callsOf node.id = [call] := by
    rw [List.filter_reverse, List.reverse_eq_iff] at hcalls
    exact hcalls
  have hmem : call ∈ s.callsOf node.id := hown ▸ List.mem_singleton_self call
  have hknown := (h.covered.known (List.mem_reverse.2 (List.mem_of_mem_filter hmem))).1
  rw [Prod.mk.injEq] at hcall
  rw [hcall.1, h.known] at hknown
  exact ⟨call, hown, (Option.some.inj hknown).symm, hcall.2⟩

/-- It fires just if the node had not run before the pass. -/
theorem outputs_eq {call : Call} (hown : s.callsOf node.id = [call]) :
    call.outputs = some (if ran then {} else .fire "exec") := by
  have hruns := h.latched.runs
  rw [hown] at hruns
  simpa using hruns.1

theorem opens_iff {call : Call} (hown : s.callsOf node.id = [call]) (hnode : call.node = node) :
    call.Opens (Catalogue.standard : Catalogue σ) "exec" ↔ ran = false := by
  have houtputs := h.outputs_eq hown
  constructor
  · rintro ⟨d, outputs, -, hleft, value, hvalue, -⟩
    obtain rfl := Option.some.inj (houtputs.symm.trans hleft)
    cases ran with
    | false => rfl
    | true => cases hvalue -- empty outputs hold nothing
  · rintro rfl
    refine ⟨Kind.onStart, .fire "exec", ?_, houtputs, .bool true, rfl, fun _ => rfl⟩
    rw [hnode, h.starts, Catalogue.get?_onStart]

theorem hasRun : (s.memoryOf node.id).hasRun = true := by
  rcases h.callsOf_eq with ⟨call, hown, -⟩
  rw [h.latched.memory, hown]
  simp

/-- A connection from the node is followed just if the node had not run, at the start and with room. -/
theorem followed_iff {conn : Connection} (hconn : conn ∈ g.connections)
    (hfrom : conn.fromNode = node.id) (depth : Nat) :
    .followed conn depth ∈ s.events ↔ ran = false ∧ depth = 0 ∧ 0 < config.maxDepth := by
  have hport := exec_of_issues h.issues h.known h.starts hconn hfrom
  rcases h.callsOf_eq with ⟨call, hown, hnode, -⟩
  have hmem : call ∈ s.callsOf node.id := hown ▸ List.mem_singleton_self call
  have hcall : call ∈ s.calls := List.mem_of_mem_filter hmem
  have hcause : call.cause = .pushed 0 := h.cause_of_mem hcall (hnode ▸ rfl)
  rw [h.followed]
  constructor
  · rintro ⟨⟨push, hpush, hdepth, hsource, hopens⟩, -, hroom⟩
    rw [Wiring.connectionsFrom_ofGraph, Graph.mem_connectionsFrom] at hsource
    -- The push that opened the connection is the one run of the node.
    have hown' : push ∈ s.callsOf node.id :=
      List.mem_filter.2 ⟨hpush, by simpa using hsource.2.symm.trans hfrom⟩
    rw [hown, List.mem_singleton] at hown'
    subst hown'
    rw [hport, h.opens_iff hown hnode] at hopens
    obtain rfl : 0 = depth := Cause.pushed.inj (hcause.symm.trans hdepth)
    exact ⟨hopens, rfl, hroom⟩
  · rintro ⟨hran, rfl, hroom⟩
    refine ⟨⟨call, hcall, hcause, ?_, ?_⟩, ?_, hroom⟩
    · rw [Wiring.connectionsFrom_ofGraph, Graph.mem_connectionsFrom, hnode]
      exact ⟨hconn, hfrom⟩
    · rw [hport]
      exact (h.opens_iff hown hnode).2 hran
    · rcases Graph.fits_of_issues h.issues hconn with ⟨source, target, p, q, hfits⟩
      rcases Graph.definition?_eq_some_iff.1 hfits.enters with ⟨n, hn, -⟩
      exact ⟨n, by rw [Wiring.node?_ofGraph]; exact hn⟩

end Begun

/-- All of this is known at the end of a pass over a graph without issues. -/
theorem begun_passEnd (config : ExecutorConfig)
    (hissues : g.issues (Catalogue.standard : Catalogue σ) = []) (hnode : node ∈ g.nodes)
    (hkind : node.kind = "OnStart") (world : World σ) (memories : Table NodeId Slot) :
    Begun g config node ((memories.get? node.id).getD none).hasRun
      (Executor.passEnd g Catalogue.standard config world memories) where
  issues := hissues
  known := Graph.node?_of_issues hissues hnode
  starts := hkind
  covered := over_passEnd g _ config world memories
  latched := latched_passEnd config (Graph.node?_of_issues hissues hnode) hkind world memories
  followed := Plan.followed_iff_opened (p := g.plan Catalogue.standard config)
    (Wiring.keyed_ofGraph g) _ world memories

end Pass

/-! ## Passes and resets -/

namespace Executor

omit [SceneHost σ] in
/-- Was there no pass since the start or the last reset? -/
def Rearmed (turns : List (Turn σ)) : Prop := ∀ turn ∈ turns.getLast?, turn = .reset

variable {g : Graph} {config : ExecutorConfig} {node : Node}

/-- Between passes, the node has run if there was a pass since the start or the last reset. -/
theorem hasRun_after (config : ExecutorConfig)
    (hissues : g.issues (Catalogue.standard : Catalogue σ) = []) (hnode : node ∈ g.nodes)
    (hkind : node.kind = "OnStart") (turns : List (Turn σ)) :
    ((((ofGraph g Catalogue.standard config).1.after turns).memories.get? node.id).getD none).hasRun
        = false ↔ Rearmed turns := by
  rcases turns.eq_nil_or_concat' with rfl | ⟨before, turn, rfl⟩
  · exact iff_of_true rfl (by simp [Rearmed])
  · cases turn with
    | reset =>
      have hforgotten :
          ((ofGraph g (Catalogue.standard : Catalogue σ) config).1.after
            (before ++ [.reset])).memories = ∅ := by
        rw [after, List.foldl_concat]
        rfl
      rw [hforgotten]
      exact iff_of_true rfl (by simp [Rearmed])
    | pass world =>
      have hran := (Pass.begun_passEnd config hissues hnode hkind world
        ((ofGraph g Catalogue.standard config).1.after before).memories).hasRun
      rw [Pass.memoryOf, ← memories_after_pass] at hran
      rw [hran]
      exact iff_of_false (by decide) (by simp [Rearmed])

end Executor

/-! ## The law -/

/-- What is known of a node that fires once when a pass is over, if the pass was the first one or not.

- The node ran once, as a start, and fired just if the pass was the first one.
- A connection from it was followed just if the pass was the first one; that was at depth zero, and
  there was room. -/
structure StartLaw (g : Graph) (c : Catalogue σ) (config : ExecutorConfig) (node : Node)
    (first : Prop) (events : List Event) : Prop where
  runs : ∃ call, (Event.calls events).filter (·.node.id = node.id) = [call] ∧
    call.cause = .pushed 0 ∧ call.inputs = {} ∧ (call.Opens c "exec" ↔ first)
  followed : ∀ conn ∈ g.connections, conn.fromNode = node.id → ∀ depth,
    .followed conn depth ∈ events ↔ first ∧ depth = 0 ∧ 0 < config.maxDepth

namespace Executor

/-- In every pass over a graph without issues, each node that fires once keeps the law. -/
theorem startLaw_execute (g : Graph) (config : ExecutorConfig) (node : Node)
    (hissues : g.issues (Catalogue.standard : Catalogue σ) = []) (hnode : node ∈ g.nodes)
    (hkind : node.kind = "OnStart") (turns : List (Turn σ)) (world : World σ) :
    StartLaw g (Catalogue.standard : Catalogue σ) config node (Rearmed turns)
      (((ofGraph g Catalogue.standard config).1.after turns).execute world).2.2 := by
  have hbegun := Pass.begun_passEnd config hissues hnode hkind world
    ((ofGraph g Catalogue.standard config).1.after turns).memories
  rw [events_after, ← hasRun_after config hissues hnode hkind turns]
  constructor
  case runs =>
    rcases hbegun.callsOf_eq with ⟨call, hown, hcall, hinputs⟩
    have hmem : call ∈ Pass.callsOf _ node.id := hown ▸ List.mem_singleton_self call
    refine ⟨call, ?_, ?_, hinputs, hbegun.opens_iff hown hcall⟩
    · rw [Pass.calls_reverse, List.filter_reverse]
      exact congrArg List.reverse hown
    · exact hbegun.cause_of_mem (List.mem_of_mem_filter hmem) (hcall ▸ rfl)
  case followed =>
    intro conn hconn hfrom depth
    rw [List.mem_reverse]
    exact hbegun.followed_iff hconn hfrom depth

/-- The relay is told to write in its first pass, not in the second one, and again after a reset. -/
theorem startLaw_relay :
    let c : Catalogue HeadlessScene := .standard
    let world : World HeadlessScene := .ofHost {} ⟨fun _ => "", 0⟩
    let go : Connection := ⟨"go", "start", "exec", "write", "exec"⟩
    let events (turns : List (Turn HeadlessScene)) :=
      (((ofGraph Graph.relay c {}).1.after turns).execute world).2.2
    Graph.relay.issues c = [] ∧
      .followed go 0 ∈ events [] ∧ .followed go 0 ∉ events [.pass world] ∧
      .followed go 0 ∈ events [.pass world, .reset] := by
  intro c world go events
  have hissues : Graph.relay.issues c = [] := by decide
  have hlaw : ∀ turns, .followed go 0 ∈ events turns ↔
      Rearmed turns ∧ 0 = 0 ∧ 0 < ({} : ExecutorConfig).maxDepth := by
    intro turns
    have hstart := startLaw_execute Graph.relay {} (.ofKind "start" "OnStart") hissues
      List.mem_cons_self rfl turns world
    exact hstart.followed go List.mem_cons_self rfl 0
  refine ⟨hissues, (hlaw _).2 ⟨?_, rfl, by decide⟩, ?_, (hlaw _).2 ⟨?_, rfl, by decide⟩⟩
  · simp [Rearmed]
  · rw [hlaw]
    simp [Rearmed]
  · simp [Rearmed]

/-- With a depth limit of zero the start of the relay fires, but is not followed. -/
theorem followed_shallow :
    let c : Catalogue HeadlessScene := .standard
    let config : ExecutorConfig := { maxDepth := 0 }
    let world : World HeadlessScene := .ofHost {} ⟨fun _ => "", 0⟩
    let pass := passEnd Graph.relay c config world ∅
    Graph.relay.issues c = [] ∧
      pass.calls.map (fun call => (call.node.id, (call.outputs.bind (·.get? "exec")))) =
        [("start", some (.bool true))] ∧
      pass.events.any (fun | .followed .. => true | _ => false) = false := by
  decide

end Executor

end GraphScript

import GraphScript.Proofs.ConnectionEvents
import GraphScript.Proofs.Coverage
import GraphScript.Proofs.TriggerMemory
import GraphScript.Proofs.TypedRuns

/-!
# Ticks — when timers tick, and who notices

A timer remembers the time of its last tick.  Every run of it that comes when its interval has elapsed
is a tick, whether it is a push or a pull, and in one pass only the first run can be one.

- `Pass.Ticking` — what is known of a timer in the middle of a pass;
- `TickLaw` — what is known of a timer after a pass: it ticked just if its interval had elapsed, and
  then its control flow was followed just if its first run was its push, and no pull got the time;
- `Executor.frames_tickLaw` — passes in a row keep this law.

So a pull that comes first takes the tick away (`Graph.early`), and one that comes later gets
nothing (`Executor.stamp_blind`).
-/

namespace GraphScript

variable {σ : Type}

/-! ## Timers -/

theorem sub_self_of_isFinite {x : Float} (h : x.isFinite = true) : x - x = 0 := by
  have hzero : (0 : Float) = Float.ofModel (Float.Model.pack (.zero .positive)) := by decide
  have hsub : x - x = Float.ofModel (Float.Model.pack
      (Float.Model.UnpackedFloat.sub .binary64 x.toModel.unpack x.toModel.unpack)) := rfl
  rw [hsub, hzero]
  have hfinite : x.toModel.unpack.isFinite = true := h
  generalize x.toModel.unpack = u at hfinite
  cases u with
  | notANumber => cases hfinite
  | infinity sign => cases hfinite
  | zero sign => cases sign <;> rfl
  | finite sign mantissa exponent hpos =>
    -- Both are brought to the same exponent, so the mantissas are the same and nothing is left.
    let lowered : Int := sign.apply
      (Float.Model.UnpackedFloat.decreaseExponent mantissa exponent (min exponent exponent)).1
    change Float.ofModel (Float.Model.pack (Float.Model.UnpackedFloat.normalize .binary64
      (lowered - lowered) (min exponent exponent) .positive)) = _
    rw [Int.sub_self]
    rfl

namespace Kind

/-- An interval is positive, whatever the node says. -/
theorem interval_pos (node : Node) : 0 < interval node := by
  unfold interval
  cases h : (node.number? "interval").filter (0 < ·) with
  | none => decide
  | some x =>
    rw [Option.filter_eq_some_iff] at h
    simpa using h.2

/-- After a tick no time has elapsed. -/
theorem not_due_of_isFinite (node : Node) {time : Float} (h : time.isFinite = true) :
    ¬ Due node time time := by
  rw [Due, Classical.not_not, sub_self_of_isFinite h]
  exact interval_pos node

end Kind

theorem Catalogue.get?_every [SceneHost σ] :
    (standard : Catalogue σ).get? "Every" = some Kind.every :=
  get?_of_mem_standard (d := Kind.every) (by simp [Kind.standard])

namespace Pass

variable {p : Plan σ} {s : Pass σ} {node : Node} {last time : Float}

/-- In view of the runs before it, a run of the timer leaves a tick just if it is the first one and the
timer is due. -/
def TickRule (node : Node) (last time : Float) (before : List Call) (call : Call) : Prop :=
  call.node.id = node.id → call.outputs =
    if (∀ earlier ∈ before, earlier.node.id ≠ node.id) ∧ Kind.Due node last time then
      some (Kind.tick time)
    else none

/-- What is known of a timer in a pass at the given time: it remembers the last tick before the pass,
or a tick in the pass, and its runs keep the rule. -/
structure Ticking (node : Node) (last time : Float) (s : Pass σ) : Prop where
  clock : s.world.time = time
  memory : Slot.lastTick ((s.memories.get? node.id).getD none) =
    if (∃ call ∈ s.calls, call.node.id = node.id) ∧ Kind.Due node last time then time else last
  runs : Each (TickRule node last time) s.calls

/-- Runs of other nodes do not concern the timer. -/
theorem Ticking.call_other [SceneHost σ] (h : Ticking node last time s) {other : Node}
    {d : Definition σ} (hd : (Catalogue.standard : Catalogue σ).get? other.kind = some d)
    (hid : other.id ≠ node.id) (cause : Cause) (inputs : Inputs) :
    Ticking node last time (s.call d other cause inputs).2 := by
  constructor
  case clock =>
    rw [call_world]
    exact (Catalogue.time_of_standard hd _).trans h.clock
  case memory =>
    rw [call_memories, Table.get?_insert, if_neg hid, h.memory, call_calls]
    simp [hid]
  case runs =>
    rw [call_calls]
    exact ⟨fun hsame => absurd hsame hid, h.runs⟩

/-- A run of the timer keeps the rule: it finds the time of a tick that is over, or of one just now. -/
theorem Ticking.call_self [SceneHost σ] (h : Ticking node last time s)
    (htime : time.isFinite = true) (cause : Cause) (inputs : Inputs) :
    Ticking node last time (s.call Kind.every node cause inputs).2 := by
  have hlast := h.memory
  have houtputs := Kind.outputs_every ⟨s.world, inputs, node, (s.memories.get? node.id).getD none⟩
  have hmemory := congrArg Slot.lastTick
    (Kind.memory_every ⟨s.world, inputs, node, (s.memories.get? node.id).getD none⟩)
  simp only [h.clock, Slot.lastTick_set] at houtputs hmemory
  constructor
  case clock =>
    rw [call_world, outcome, Kind.world_every]
    exact h.clock
  case memory =>
    rw [call_memories, Table.get?_insert, if_pos rfl, Option.getD_some]
    refine hmemory.trans ?_
    -- If the timer ticked in this pass, no time has elapsed. If not, it still remembers `last`.
    by_cases hran : ∃ call ∈ s.calls, call.node.id = node.id
    · by_cases hdue : Kind.Due node last time
      · rw [if_pos ⟨hran, hdue⟩] at hlast
        simp [hlast, Kind.not_due_of_isFinite node htime, hdue]
      · rw [if_neg (fun hboth => hdue hboth.2)] at hlast
        simp [hlast, hdue]
    · rw [if_neg (fun hboth => hran hboth.1)] at hlast
      simp [hlast]
  case runs =>
    rw [call_calls]
    refine ⟨fun _ => houtputs.trans ?_, h.runs⟩
    by_cases hran : ∃ call ∈ s.calls, call.node.id = node.id
    · -- After the first run the timer is not due, whether that was a tick or not.
      have hlater : ¬ ∀ earlier ∈ s.calls, earlier.node.id ≠ node.id := by
        rcases hran with ⟨call, hcall, hsame⟩
        exact fun hnone => hnone call hcall hsame
      simp only [hlater, false_and, if_false]
      by_cases hdue : Kind.Due node last time
      · rw [if_pos ⟨hran, hdue⟩] at hlast
        rw [hlast, if_neg (Kind.not_due_of_isFinite node htime)]
      · rw [if_neg (fun hboth => hdue hboth.2)] at hlast
        rw [hlast, if_neg hdue]
    · have hfirst : ∀ earlier ∈ s.calls, earlier.node.id ≠ node.id :=
        fun earlier hearlier hsame => hran ⟨earlier, hearlier, hsame⟩
      rw [if_neg (fun hboth => hran hboth.1)] at hlast
      rw [hlast]
      exact if_congr (and_iff_right hfirst).symm rfl rfl

/-- Wherever the walk is, the timer keeps the rule. -/
theorem walkInvariant_ticking [SceneHost σ] {g : Graph} {config : ExecutorConfig}
    (hnode : g.node? node.id = some node) (hkind : node.kind = "Every")
    (htime : time.isFinite = true) :
    WalkInvariant (⟨Wiring.ofGraph g, Catalogue.standard, config⟩ : Plan σ)
      (Ticking node last time) := by
  have hcall : ∀ (s : Pass σ) (other : Node) d cause inputs, g.node? other.id = some other →
      (Catalogue.standard : Catalogue σ).get? other.kind = some d → Ticking node last time s →
      Ticking node last time (s.call d other cause inputs).2 := by
    intro s other d cause inputs hother hd hs
    by_cases hid : other.id = node.id
    · -- There is one node under the id, and it is the timer.
      rw [hid] at hother
      obtain rfl : node = other := Option.some.inj (hnode.symm.trans hother)
      rw [hkind, Catalogue.get?_every] at hd
      obtain rfl : Kind.every = d := Option.some.inj hd
      exact hs.call_self htime cause inputs
    · exact hs.call_other hd hid cause inputs
  constructor
  case noted => exact fun s n _ hs => ⟨hs.clock, hs.memory, hs.runs⟩
  case entered =>
    intro s other d depth inputs hother hd _ hs
    rw [Wiring.node?_ofGraph] at hother
    exact hcall { s with executed := other.id :: s.executed } other d _ inputs hother hd
      ⟨hs.clock, hs.memory, hs.runs⟩
  case resolved =>
    intro s target conn source d _ hsource hd _ hs
    have hid : source.id = conn.fromNode := Wiring.keyed_ofGraph g _ _ hsource
    rw [Wiring.node?_ofGraph, ← hid] at hsource
    have hpulled : Ticking node last time
        (pull (⟨Wiring.ofGraph g, Catalogue.standard, config⟩ : Plan σ) d source s).2 :=
      pull_invariant hs (hcall s source d .pulled {} hsource hd hs)
        fun _ _ ht => ⟨ht.clock, ht.memory, ht.runs⟩
    exact ⟨hpulled.clock, hpulled.memory, hpulled.runs⟩
  case followed => exact fun s conn depth _ _ _ hs => ⟨hs.clock, hs.memory, hs.runs⟩

end Pass

/-! ## Graphs without issues -/

/-- Nothing is wired into a frame trigger, since none has an input. -/
theorem Graph.isTrigger_eq_false_of_issues [SceneHost σ] {g : Graph}
    (hissues : g.issues (Catalogue.standard : Catalogue σ) = []) {conn : Connection}
    (hconn : conn ∈ g.connections) :
    g.isTrigger (Catalogue.standard : Catalogue σ) conn.toNode = false := by
  rcases fits_of_issues hissues hconn with ⟨source, target, p, q, hfits⟩
  rcases definition?_eq_some_iff.1 hfits.enters with ⟨n, -, hd⟩
  have hmem := (Catalogue.mem_of_standard hd).1
  have hinput : target.inputs ≠ [] := by
    intro hnone
    have h := hfits.input
    rw [Definition.input?, hnone] at h
    cases h
  rw [isTrigger, hfits.enters, Option.any_some]
  cases target, hmem using Kind.standard_cases with
  | onStart | onKey | every => exact absurd rfl hinput -- the triggers
  | _ => rfl

/-! ## The law -/

def KeepTickRule (node : Node) (last time : Float) (runs : List Call) : Prop :=
  ∀ before call after, runs = before ++ call :: after → Pass.TickRule node last time before call

namespace KeepTickRule

variable {node : Node} {last time : Float} {runs : List Call} {call : Call}

/-- A run that leaves outputs is the first one, and the timer is due. -/
theorem first_of_outputs (h : KeepTickRule node last time runs) (hcall : call ∈ runs)
    (hid : call.node.id = node.id) {outputs : Outputs} (houtputs : call.outputs = some outputs) :
    Kind.Due node last time ∧ runs.find? (·.node.id = node.id) = some call := by
  rcases List.append_of_mem hcall with ⟨before, after, hruns⟩
  have hrule := h before call after hruns hid
  rw [houtputs] at hrule
  split at hrule
  · rename_i hfirst
    refine ⟨hfirst.2, List.find?_eq_some_iff_append.2 ⟨by simpa using hid, before, after, hruns, ?_⟩⟩
    intro earlier hearlier
    simpa using hfirst.1 earlier hearlier
  · cases hrule

/-- If the timer is due, its first run ticks. -/
theorem outputs_of_first (h : KeepTickRule node last time runs)
    (hfirst : runs.find? (·.node.id = node.id) = some call) (hdue : Kind.Due node last time) :
    call.node.id = node.id ∧ call ∈ runs ∧ call.outputs = some (Kind.tick time) := by
  rcases List.find?_eq_some_iff_append.1 hfirst with ⟨hid, before, after, hruns, hbefore⟩
  have hid : call.node.id = node.id := by simpa using hid
  have hnone : ∀ earlier ∈ before, earlier.node.id ≠ node.id := by
    intro earlier hearlier
    simpa using hbefore earlier hearlier
  refine ⟨hid, List.mem_of_find?_eq_some hfirst, ?_⟩
  rw [h before call after hruns hid, if_pos ⟨hnone, hdue⟩]

end KeepTickRule

namespace Event

/-- Did a run of the node leave outputs? -/
def ticks (id : NodeId) (events : List Event) : Bool :=
  (Event.calls events).any fun call => call.node.id = id && call.outputs.isSome

def startsPushed (id : NodeId) (events : List Event) : Bool :=
  ((Event.calls events).find? (·.node.id = id)).any Call.isPush

theorem startsPushed_iff {id : NodeId} {events : List Event} :
    startsPushed id events = true ↔
      ∃ call, (Event.calls events).find? (·.node.id = id) = some call ∧ call.isPush = true := by
  rw [startsPushed, Option.any_eq_true]

end Event

/-- What is known of the events of one pass at the given time, if the last tick of the timer was at the
other one.

- Just the first run of the timer is a tick, and that just if the interval has elapsed.
- Its control flow is followed just if that first run ticks and is its push. The first run is its push
  if no data is wired from the timer.
- When its control flow is followed, nothing that is resolved with the timer gets a value, and no target
  of such a connection has one at the input, unless something else is wired there. -/
structure TickLaw (g : Graph) (node : Node) (last time : Float) (events : List Event) : Prop where
  runs : KeepTickRule node last time (Event.calls events)
  ticks : Event.ticks node.id events = true ↔ Kind.Due node last time
  followed : ∀ conn ∈ g.connections, conn.fromNode = node.id → conn.fromPort = "exec" →
    ((∃ depth, .followed conn depth ∈ events) ↔
      Kind.Due node last time ∧ Event.startsPushed node.id events = true)
  undisturbed : (∀ conn ∈ g.connections, conn.fromNode = node.id → conn.fromPort = "exec") →
    Event.startsPushed node.id events = true
  blind : Event.startsPushed node.id events = true →
    ∀ conn outputs, .resolved conn outputs ∈ events → conn.fromNode = node.id → outputs = none
  bare : Event.startsPushed node.id events = true →
    ∀ conn ∈ g.connections, conn.fromNode = node.id →
      (∀ other ∈ g.connections, other.toNode = conn.toNode → other.toPort = conn.toPort →
        other = conn) →
      ∀ call ∈ Event.calls events, call.node.id = conn.toNode →
        call.inputs.get? conn.toPort = none

namespace Pass

variable {g : Graph} {config : ExecutorConfig} {node : Node} {last time : Float} {s : Pass σ}
  {call : Call}

theorem Ticking.keepTickRule (h : Ticking node last time s) :
    KeepTickRule node last time (Event.calls s.events.reverse) := by
  intro before call after hruns hid
  rw [calls_reverse, List.reverse_eq_iff] at hruns
  have hsplit : s.calls = after.reverse ++ call :: before.reverse := by simpa using hruns
  have heach := h.runs
  rw [hsplit] at heach
  simpa using heach.split hid

variable [SceneHost σ]

/-- What is known when a pass over a graph without issues and with a timer is over. -/
structure Timed (g : Graph) (config : ExecutorConfig) (node : Node) (last time : Float)
    (s : Pass σ) : Prop where
  issues : g.issues (Catalogue.standard : Catalogue σ) = []
  room : 0 < config.maxDepth
  known : g.node? node.id = some node
  timer : node.kind = "Every"
  covered : Over g Catalogue.standard config s
  ticking : Ticking node last time s
  followed : ∀ conn depth, .followed conn depth ∈ s.events ↔
    Leads (g.plan (Catalogue.standard : Catalogue σ) config) s.calls conn depth
  resolved : ∀ conn outputs, .resolved conn outputs ∈ s.events → Left s.calls conn.fromNode outputs
  typed : AllTyped g Catalogue.standard s

namespace Timed

variable (h : Timed g config node last time s)

include h

theorem definition? :
    g.definition? (Catalogue.standard : Catalogue σ) node.id = some Kind.every :=
  Graph.definition?_eq_some_iff.2 ⟨node, h.known, by rw [h.timer, Catalogue.get?_every]⟩

theorem exists_first :
    ∃ call, (Event.calls s.events.reverse).find? (·.node.id = node.id) = some call := by
  have hstart : node.id ∈ (Wiring.ofGraph g).startNodes (Catalogue.standard : Catalogue σ) :=
    Wiring.mem_startNodes_iff.2 ⟨node, Kind.every, h.known, by rw [h.timer, Catalogue.get?_every], rfl⟩
  rw [← h.covered.starts_ids, List.mem_map] at hstart
  rcases hstart with ⟨call, hcall, hid⟩
  rw [calls_reverse, ← Option.isSome_iff_exists, List.find?_isSome]
  exact ⟨call, List.mem_of_mem_filter hcall, by simpa using hid⟩

/-- There is a tick in the pass just if the timer was due. -/
theorem ticks_iff : Event.ticks node.id s.events.reverse = true ↔ Kind.Due node last time := by
  simp only [Event.ticks, List.any_eq_true, Bool.and_eq_true, decide_eq_true_eq,
    Option.isSome_iff_exists]
  constructor
  · rintro ⟨call, hcall, hid, outputs, houtputs⟩
    exact (h.ticking.keepTickRule.first_of_outputs hcall hid houtputs).1
  · intro hdue
    rcases h.exists_first with ⟨first, hfirst⟩
    rcases h.ticking.keepTickRule.outputs_of_first hfirst hdue with ⟨hid, hcall, houtputs⟩
    exact ⟨first, hcall, hid, _, houtputs⟩

/-- The timer remembers the tick of the pass, or else what it did before. -/
theorem memory : Slot.lastTick ((s.memories.get? node.id).getD none) =
    if Event.ticks node.id s.events.reverse then time else last := by
  rcases h.exists_first with ⟨first, hfirst⟩
  have hran : ∃ call ∈ s.calls, call.node.id = node.id :=
    ⟨first, mem_calls_reverse.1 (List.mem_of_find?_eq_some hfirst),
      by simpa using List.find?_some hfirst⟩
  rw [h.ticking.memory]
  exact if_congr ((and_iff_right hran).trans h.ticks_iff.symm) rfl rfl

/-- A push of the timer that ticks opens its control output. It is a start, so there is room. -/
theorem leads_of_push {push : Call} (hcall : push ∈ s.calls) (hid : push.node.id = node.id)
    (hisPush : push.isPush = true) (houtputs : push.outputs = some (Kind.tick time))
    {conn : Connection} (hconn : conn ∈ g.connections) (hfrom : conn.fromNode = node.id)
    (hport : conn.fromPort = "exec") :
    Leads (g.plan (Catalogue.standard : Catalogue σ) config) s.calls conn 0 := by
  have htrigger : g.isTrigger (Catalogue.standard : Catalogue σ) push.node.id = true := by
    rw [hid, Graph.isTrigger, h.definition?]
    rfl
  have hcause : push.cause = .pushed 0 :=
    h.covered.cause_of_trigger (fun conn hconn => Graph.isTrigger_eq_false_of_issues h.issues hconn)
      (List.mem_reverse.2 hcall) hisPush htrigger
  have hknown := (h.covered.known (List.mem_reverse.2 hcall)).1
  rw [hid] at hknown
  have hnode : node = push.node := Option.some.inj (h.known.symm.trans hknown)
  constructor
  case opened =>
    refine ⟨push, hcall, hcause, ?_, Kind.every, Kind.tick time, ?_, houtputs, .bool true, ?_,
      fun _ => rfl⟩
    · rw [Wiring.connectionsFrom_ofGraph, Graph.mem_connectionsFrom]
      exact ⟨hconn, hfrom.trans hid.symm⟩
    · rw [← hnode, h.timer]
      exact Catalogue.get?_every
    · rw [hport]
      rfl
  case target =>
    rcases Graph.fits_of_issues h.issues hconn with ⟨source, target, p, q, hfits⟩
    rcases Graph.definition?_eq_some_iff.1 hfits.enters with ⟨n, hn, -⟩
    exact ⟨n, by rw [Wiring.node?_ofGraph]; exact hn⟩
  case depth => exact h.room

/-- The control flow of the timer is followed just if its first run ticks and is its push. -/
theorem followed_iff {conn : Connection} (hconn : conn ∈ g.connections)
    (hfrom : conn.fromNode = node.id) (hport : conn.fromPort = "exec") :
    (∃ depth, .followed conn depth ∈ s.events.reverse) ↔
      Kind.Due node last time ∧ Event.startsPushed node.id s.events.reverse = true := by
  constructor
  · rintro ⟨depth, hfollowed⟩
    -- Some push opened the connection, so it left outputs.
    rcases ((h.followed conn depth).1 (List.mem_reverse.1 hfollowed)).opened with
      ⟨call, hcall, hcause, hsource, d, outputs, -, houtputs, -⟩
    rw [Wiring.connectionsFrom_ofGraph, Graph.mem_connectionsFrom] at hsource
    rcases h.ticking.keepTickRule.first_of_outputs (mem_calls_reverse.2 hcall)
      (hsource.2.symm.trans hfrom) houtputs with ⟨hdue, hfirst⟩
    exact ⟨hdue, Event.startsPushed_iff.2 ⟨call, hfirst, by rw [Call.isPush, hcause]⟩⟩
  · rintro ⟨hdue, hpushed⟩
    rcases Event.startsPushed_iff.1 hpushed with ⟨push, hpush, hisPush⟩
    rcases h.ticking.keepTickRule.outputs_of_first hpush hdue with ⟨hid, hcall, houtputs⟩
    have hleads := h.leads_of_push (mem_calls_reverse.1 hcall) hid hisPush houtputs hconn hfrom hport
    exact ⟨0, List.mem_reverse.2 ((h.followed conn 0).2 hleads)⟩

/-- A timer from which only control flow is wired is never pulled. -/
theorem undisturbed
    (hcontrol : ∀ conn ∈ g.connections, conn.fromNode = node.id → conn.fromPort = "exec") :
    Event.startsPushed node.id s.events.reverse = true := by
  rcases h.exists_first with ⟨first, hfirst⟩
  have hcall := List.mem_of_find?_eq_some hfirst
  rw [calls_reverse] at hcall
  have hid : first.node.id = node.id := by simpa using List.find?_some hfirst
  have hdata : ∀ conn ∈ g.connections, conn.fromNode = node.id →
      ∀ d, g.definition? (Catalogue.standard : Catalogue σ) node.id = some d →
        d.isControlOutput conn.fromPort = true := by
    intro conn hconn hfrom d hd
    obtain rfl : Kind.every = d := Option.some.inj (h.definition?.symm.trans hd)
    rw [hcontrol conn hconn hfrom]
    rfl
  exact Event.startsPushed_iff.2 ⟨first, hfirst, h.covered.only_pushed hdata hcall hid⟩

/-- After its push the timer leaves nothing to pulls. -/
theorem blind (hpushed : Event.startsPushed node.id s.events.reverse = true) {conn : Connection}
    {outputs : Option Outputs} (hresolved : .resolved conn outputs ∈ s.events)
    (hfrom : conn.fromNode = node.id) : outputs = none := by
  rcases Event.startsPushed_iff.1 hpushed with ⟨push, hpush, hisPush⟩
  rcases h.resolved conn outputs hresolved with ⟨call, hcall, hid, hpull, rfl⟩
  cases houtputs : call.outputs with
  | none => rfl
  | some outputs =>
    -- A pull that left something would be the first run, and that is a push.
    have hfirst := (h.ticking.keepTickRule.first_of_outputs (mem_calls_reverse.2 hcall)
      (hid.trans hfrom) houtputs).2
    obtain rfl : push = call := Option.some.inj (hpush.symm.trans hfirst)
    cases hpull.symm.trans hisPush

/-- So no run has a value at an input into which nothing but the timer is wired. -/
theorem bare (hpushed : Event.startsPushed node.id s.events.reverse = true) {conn : Connection}
    (hfrom : conn.fromNode = node.id)
    (honly : ∀ other ∈ g.connections, other.toNode = conn.toNode → other.toPort = conn.toPort →
      other = conn) {call : Call} (hcall : .called call ∈ s.events)
    (hid : call.node.id = conn.toNode) : call.inputs.get? conn.toPort = none := by
  rcases h.typed.mem hcall with ⟨before, hbefore, -, hinputs, -⟩
  cases hvalue : call.inputs.get? conn.toPort with
  | none => rfl
  | some value =>
    rcases hinputs conn.toPort value hvalue with ⟨other, outputs, hto, hport, hresolved, -⟩
    rcases h.typed.mem (hbefore hresolved) with ⟨-, -, hother, -⟩
    obtain rfl : other = conn := honly other hother (hto.trans hid) hport
    cases h.blind hpushed (hbefore hresolved) hfrom

/-- When the pass is over, it has kept the law of the timer. -/
theorem tickLaw : TickLaw g node last time s.events.reverse where
  runs := h.ticking.keepTickRule
  ticks := h.ticks_iff
  followed _ hconn hfrom hport := h.followed_iff hconn hfrom hport
  undisturbed := h.undisturbed
  blind hpushed _ _ hresolved hfrom := h.blind hpushed (List.mem_reverse.1 hresolved) hfrom
  bare := by
    intro hpushed conn _ hfrom honly call hcall hid
    rcases List.mem_filterMap.1 hcall with ⟨e, he, hcalled⟩
    cases e with
    | called call' =>
      cases hcalled
      exact h.bare hpushed hfrom honly (List.mem_reverse.1 he) hid
    | _ => cases hcalled

end Timed

/-- All of this is known at the end of a pass, if the clock shows a finite time. -/
theorem timed_passEnd (hissues : g.issues (Catalogue.standard : Catalogue σ) = [])
    (hroom : 0 < config.maxDepth) (hnode : g.node? node.id = some node) (hkind : node.kind = "Every")
    {world : World σ} (htime : world.time.isFinite = true) (memories : Table NodeId Slot) :
    Timed g config node (Slot.lastTick ((memories.get? node.id).getD none)) world.time
      (Executor.passEnd g Catalogue.standard config world memories) := by
  have hkeyed := Wiring.keyed_ofGraph g
  constructor
  case issues => exact hissues
  case room => exact hroom
  case known => exact hnode
  case timer => exact hkind
  case covered => exact over_passEnd g _ config world memories
  case ticking =>
    refine Plan.invariant_of_walk hkeyed (walkInvariant_ticking hnode hkind htime) _ ?_
    exact ⟨rfl, (if_neg fun hboth => by rcases hboth.1 with ⟨_, hcall, -⟩; cases hcall).symm, trivial⟩
  case followed =>
    exact Plan.followed_iff_opened (p := g.plan Catalogue.standard config) hkeyed _ world memories
  case resolved =>
    exact fun conn outputs => Plan.left_of_resolved (p := g.plan Catalogue.standard config) hkeyed
  case typed => exact allTyped_pass config hissues _ world memories

end Pass

/-! ## Passes in a row -/

namespace Executor

/-- What happens in passes in a row, with the time of each. Before each pass the host changes the world
in some way, and sets the clock. -/
def timedFrames (e : Executor σ) (world : World σ) (moves : List ((World σ → World σ) × Float)) :
    List (Float × List Event) :=
  (moves.map Prod.snd).zip
    (e.frames world (moves.map fun move world => { move.1 world with time := move.2 })).2.2

/-- The time of the last pass in which a run of the node left outputs, or else the given one. -/
def lastTick (id : NodeId) (start : Float) (frames : List (Float × List Event)) : Float :=
  frames.foldl (fun last frame => if Event.ticks id frame.2 then frame.1 else last) start

theorem timedFrames_cons (e : Executor σ) (world : World σ) (move : (World σ → World σ) × Float)
    (moves : List ((World σ → World σ) × Float)) :
    e.timedFrames world (move :: moves) =
      let pass := e.execute { move.1 world with time := move.2 }
      (move.2, pass.2.2) :: pass.1.timedFrames pass.2.1 moves := rfl

variable [SceneHost σ] {g : Graph} {config : ExecutorConfig} {node : Node}

/-- Passes in a row keep the law, each with the last tick of those before it. -/
theorem tickLaw_timedFrames (hissues : g.issues (Catalogue.standard : Catalogue σ) = [])
    (hroom : 0 < config.maxDepth) (hnode : g.node? node.id = some node) (hkind : node.kind = "Every")
    (moves : List ((World σ → World σ) × Float)) (hfinite : ∀ move ∈ moves, move.2.isFinite = true)
    (e : Executor σ) (world : World σ)
    (hplan : e.plan = g.plan (Catalogue.standard : Catalogue σ) config ∧
      e.startNodes = (Wiring.ofGraph g).startNodes (Catalogue.standard : Catalogue σ))
    (before : List (Float × List Event)) (time : Float) (events : List Event)
    (after : List (Float × List Event))
    (hsplit : e.timedFrames world moves = before ++ (time, events) :: after) :
    TickLaw g node (lastTick node.id (Slot.lastTick ((e.memories.get? node.id).getD none)) before)
      time events := by
  induction moves generalizing e world before with
  | nil => cases before <;> cases hsplit
  | cons move moves ih =>
    rcases hplan with ⟨hp, hstarts⟩
    have htime : ({ move.1 world with time := move.2 } : World σ).time.isFinite = true :=
      hfinite move List.mem_cons_self
    have htimed := Pass.timed_passEnd hissues hroom hnode hkind htime e.memories
    have hpass : passEnd g Catalogue.standard config { move.1 world with time := move.2 }
        e.memories = e.plan.pass e.startNodes { move.1 world with time := move.2 } e.memories := by
      rw [hp, hstarts]
      rfl
    rw [hpass] at htimed
    rw [timedFrames_cons] at hsplit
    let pass := e.execute { move.1 world with time := move.2 }
    cases before with
    | nil =>
      rw [List.nil_append, List.cons.injEq, Prod.mk.injEq] at hsplit
      rcases hsplit with ⟨⟨rfl, rfl⟩, -⟩
      exact htimed.tickLaw
    | cons first before =>
      rw [List.cons_append, List.cons.injEq] at hsplit
      rcases hsplit with ⟨rfl, hrest⟩
      -- The rest begins with what the timer remembers after the first pass.
      have hlater := ih (fun move hmove => hfinite move (List.mem_cons_of_mem _ hmove))
        pass.1 _ ⟨hp, hstarts⟩ before hrest
      have hmemory : Slot.lastTick ((pass.1.memories.get? node.id).getD none) =
          if Event.ticks node.id pass.2.2 then move.2
          else Slot.lastTick ((e.memories.get? node.id).getD none) := htimed.memory
      rw [hmemory] at hlater
      exact hlater

/-- In every pass of a fresh executor over a graph without issues, each timer keeps the law. -/
theorem frames_tickLaw (g : Graph) (config : ExecutorConfig) (node : Node)
    (hissues : g.issues (Catalogue.standard : Catalogue σ) = []) (hroom : 0 < config.maxDepth)
    (hnode : g.node? node.id = some node) (hkind : node.kind = "Every") (world : World σ)
    (moves : List ((World σ → World σ) × Float)) (hfinite : ∀ move ∈ moves, move.2.isFinite = true)
    (before : List (Float × List Event)) (time : Float) (events : List Event)
    (after : List (Float × List Event))
    (hsplit : (ofGraph g Catalogue.standard config).1.timedFrames world moves =
      before ++ (time, events) :: after) :
    TickLaw g node (lastTick node.id 0 before) time events := by
  have hfresh : Slot.lastTick
      (((ofGraph g (Catalogue.standard : Catalogue σ) config).1.memories.get? node.id).getD none)
        = 0 := rfl
  rw [← hfresh]
  exact tickLaw_timedFrames hissues hroom hnode hkind moves hfinite _ world ⟨rfl, rfl⟩ before time
    events after hsplit

end Executor

def Node.second : Node := (ofKind "every" "Every").withProperty "interval" (.number (.plain 1000))

/-- On every tick a variable is to get its time. -/
def Graph.stamp : Graph where
  nodes := [.second, (Node.ofKind "set" "SetVar").withProperty "varName" (.text "x")]
  connections := [⟨"1", "every", "exec", "set", "exec"⟩, ⟨"2", "every", "time", "set", "value"⟩]

/-- The first pass gets the time of a timer, and only then the timer is pushed. -/
def Graph.early : Graph where
  nodes := [.ofKind "start" "OnStart", .second,
    (Node.ofKind "set" "SetVar").withProperty "varName" (.text "x"),
    (Node.ofKind "tick" "AddVar").withProperty "varName" (.text "ticks")]
  connections := [⟨"1", "start", "exec", "set", "exec"⟩, ⟨"2", "every", "time", "set", "value"⟩,
    ⟨"3", "every", "exec", "tick", "exec"⟩]

namespace Executor

/-- Two passes in which the timer ticks, with one between them in which it waits. -/
theorem frames_tickLaw_stamp :
    let c : Catalogue HeadlessScene := .standard
    let world : World HeadlessScene := .ofHost {} ⟨fun _ => "", 0⟩
    let frames := (ofGraph Graph.stamp c {}).1.timedFrames world [(id, 1000), (id, 1500), (id, 2000)]
    Graph.stamp.issues c = [] ∧
      frames.map (fun frame => Event.ticks "every" frame.2) = [true, false, true] ∧
      ∀ before time events after, frames = before ++ (time, events) :: after →
        TickLaw Graph.stamp .second (lastTick "every" 0 before) time events := by
  intro c world frames
  have hissues : Graph.stamp.issues c = [] := by decide
  exact ⟨hissues, by decide, frames_tickLaw Graph.stamp {} .second hissues (by decide) rfl rfl world _
    (by decide)⟩

/-- The target of the timer runs when it ticks, but does not get the time. -/
theorem stamp_blind :
    let c : Catalogue HeadlessScene := .standard
    let world : World HeadlessScene := { World.ofHost {} ⟨fun _ => "", 0⟩ with time := 1000 }
    let pass := passEnd Graph.stamp c {} world ∅
    Graph.stamp.issues c = [] ∧
      pass.events.any (fun | .followed conn _ => conn.id = "1" | _ => false) = true ∧
      (∀ call ∈ pass.calls, call.node.id = "set" → call.inputs.get? "value" = none) ∧
      pass.world.value? "x" = some (.number (.plain 0)) := by
  decide

-- The pull takes the tick, and the control flow of the timer is not followed.
example :
    let c : Catalogue HeadlessScene := .standard
    let world : World HeadlessScene := { World.ofHost {} ⟨fun _ => "", 0⟩ with time := 1000 }
    let pass := passEnd Graph.early c {} world ∅
    Graph.early.issues c = [] ∧
      pass.world.value? "x" = some (.number (.plain 1000)) ∧
      pass.events.any (fun | .followed conn _ => conn.id = "3" | _ => false) = false := by
  decide

end Executor

end GraphScript

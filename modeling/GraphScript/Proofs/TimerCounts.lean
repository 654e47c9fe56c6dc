import GraphScript.Proofs.Bookkeeping
import GraphScript.Proofs.Ticks
import GraphScript.Proofs.WholeNumbers

/-!
# TimerCounts — how often a timer ticks

A timer waits until its interval has elapsed since its last tick, and its next interval begins with the
tick, not when the tick was due.  So under updates of equal length it ticks at every so many frames:
the interval is rounded up to whole frames.

- `Graph.Counts` — every tick of a timer adds one to a variable;
- `Graph.Counts.turn` — what one pass does to the variable and to the memory of the timer;
- `Session.Clocked` — what is known after so many updates; `Clocked.update` is the step;
- `Session.run_counts` — the variable after any number of updates, and the frames of the ticks.
-/

namespace GraphScript

/-- The graph is a timer that on every tick adds one to a variable. -/
structure Graph.Counts (g : Graph) (timer adder : Node) (name : String) : Prop where
  nodes : g.nodes = [timer, adder] ∨ g.nodes = [adder, timer]
  connections : ∃ id, g.connections = [⟨id, timer.id, "exec", adder.id, "exec"⟩]
  distinct : timer.id ≠ adder.id
  timerKind : timer.kind = "Every"
  adderKind : adder.kind = "AddVar"
  name : Kind.variableName adder "varName" = name
  amount : adder.number? "value" = some 1

theorem Catalogue.get?_addToVariable {σ : Type} [SceneHost σ] :
    (standard : Catalogue σ).get? "AddVar" = some Kind.addToVariable :=
  get?_of_mem_standard (d := Kind.addToVariable) (by simp [Kind.standard])

/-- The number in a variable, as a node finds it that adds to it. -/
def World.total {σ : Type} (w : World σ) (name : String) : Float :=
  ((w.value? name).bind Value.asNumber?).getD 0

/-! ## One pass -/

namespace Graph.Counts

variable {g : Graph} {timer adder : Node} {name : String} (h : g.Counts timer adder name)

include h

theorem node?_timer : g.node? timer.id = some timer := by
  rcases h.nodes with hnodes | hnodes <;> simp [node?, hnodes, h.distinct.symm]

theorem node?_adder : g.node? adder.id = some adder := by
  rcases h.nodes with hnodes | hnodes <;> simp [node?, hnodes, h.distinct]

variable {σ : Type} [SceneHost σ]

/-- Passes begin with the timer. -/
theorem startNodes : (Wiring.ofGraph g).startNodes (Catalogue.standard : Catalogue σ) = [timer.id] := by
  -- The wiring keeps one node for each id, and here no two share theirs.
  have hvalues : (Wiring.ofGraph g).nodes.values = g.nodes := by
    rw [Wiring.values_ofGraph]
    rcases h.nodes with hnodes | hnodes <;>
      simp [hnodes, List.eraseDupsBy_cons, h.distinct, h.distinct.symm]
  have htimer : ((Catalogue.standard : Catalogue σ).get? timer.kind).any Definition.isStart = true := by
    rw [h.timerKind, Catalogue.get?_every]
    rfl
  have hadder : ((Catalogue.standard : Catalogue σ).get? adder.kind).any Definition.isStart = false := by
    rw [h.adderKind, Catalogue.get?_addToVariable]
    rfl
  rw [Wiring.startNodes, hvalues]
  rcases h.nodes with hnodes | hnodes <;> simp [hnodes, htimer, hadder]

theorem connectionsFrom_adder : g.connectionsFrom adder.id = [] := by
  rcases h.connections with ⟨id, hconnections⟩
  simp [connectionsFrom, hconnections, h.distinct]

end Graph.Counts

/-- What a pass does in which the timer finds the given last tick. -/
structure Pass.Turn {σ : Type} (timer : Node) (name : String) (last : Float) (w : World σ)
    (s : Pass σ) : Prop where
  world : s.world =
    if Kind.Due timer last w.time then
      w.setVariable name (.number (.plain (w.total name + 1)))
    else w
  memory : Slot.lastTick ((s.memories.get? timer.id).getD none) =
    if Kind.Due timer last w.time then w.time else last
  ticks : Event.ticks timer.id s.events.reverse = true ↔ Kind.Due timer last w.time

/-- The timer is entered: the world stays as it is, and a tick is remembered. -/
theorem Pass.enter_every {σ : Type} (s : Pass σ) (timer : Node) :
    let last := Slot.lastTick ((s.memories.get? timer.id).getD none)
    let entered := s.enter Kind.every timer 0 {}
    entered.2.world = s.world ∧
      Slot.lastTick ((entered.2.memories.get? timer.id).getD none) =
        (if Kind.Due timer last s.world.time then s.world.time else last) ∧
      entered.1 =
        if Kind.Due timer last s.world.time then some (Kind.tick s.world.time) else none := by
  intro last entered
  let a : Activation σ := ⟨s.world, {}, timer, (s.memories.get? timer.id).getD none⟩
  refine ⟨(enter_world s _ timer {} 0).trans (Kind.world_every a), ?_, Kind.outputs_every a⟩
  rw [enter_memories, Table.get?_insert, if_pos rfl]
  exact (congrArg Slot.lastTick (Kind.memory_every a)).trans (Slot.lastTick_set _)

namespace Graph.Counts

open Pass

variable {g : Graph} {timer adder : Node} {name : String} (h : g.Counts timer adder name)

include h

section Adder

variable {σ : Type}

/-- A run of the adder adds one to the variable, and leaves outputs. -/
theorem run_adder (s : Pass σ) :
    (s.outcome Kind.addToVariable adder {}).world =
        s.world.setVariable name (.number (.plain (s.world.total name + 1))) ∧
      ∃ outputs, (s.outcome Kind.addToVariable adder {}).outputs = some outputs := by
  have hamount : ({} : Inputs).numberOr "value" adder 1 = 1 := congrArg (·.getD 1) h.amount
  refine ⟨?_, _, rfl⟩
  simp only [outcome, Kind.addToVariable, hamount, h.name]
  rfl

variable [SceneHost σ] (config : ExecutorConfig)

/-- The control flow of the timer brings nothing along. -/
theorem assemble_adder (s : Pass σ) : assemble (g.plan Catalogue.standard config) adder s = ({}, s) := by
  rcases h.connections with ⟨id, hconnections⟩
  have hincoming : g.connectionsTo adder.id = [⟨id, timer.id, "exec", adder.id, "exec"⟩] := by
    simp [connectionsTo, hconnections]
  -- The one connection that arrives is one of control, and those carry no values.
  have hcontrol : (Kind.every : Definition σ).isControlOutput "exec" = true := rfl
  simp [assemble, Wiring.connectionsTo_ofGraph, hincoming, deliver, h.node?_timer, h.timerKind,
    Catalogue.get?_every, hcontrol]

/-- The adder is pushed: it adds, and nothing follows. -/
theorem push_adder (room depth : Nat) {s : Pass σ} (hnew : adder.id ∉ s.executed) :
    (push (g.plan Catalogue.standard config) room depth adder {} s).world =
        s.world.setVariable name (.number (.plain (s.world.total name + 1))) ∧
      (push (g.plan Catalogue.standard config) room depth adder {} s).memories.get? timer.id =
        s.memories.get? timer.id ∧
      ∃ call, (push (g.plan Catalogue.standard config) room depth adder {} s).calls =
        call :: s.calls ∧ call.node = adder := by
  have hd : (g.plan (Catalogue.standard : Catalogue σ) config).catalogue.get? adder.kind =
      some Kind.addToVariable := by rw [h.adderKind]; exact Catalogue.get?_addToVariable
  rcases h.run_adder s with ⟨hworld, outputs, houtputs⟩
  have hrun : (s.enter Kind.addToVariable adder depth {}).1 = some outputs := houtputs
  -- No connection leaves the adder, so the push ends with it.
  have hpush : push (g.plan Catalogue.standard config) room depth adder {} s =
      (s.enter Kind.addToVariable adder depth {}).2.note
        (.produced adder.id adder.kind outputs.values.size) := by
    rw [push_of_mayEnter hd (Or.inr hnew), hrun]
    simp [followAll, Wiring.connectionsFrom_ofGraph, h.connectionsFrom_adder]
  rw [hpush]
  refine ⟨(enter_world s _ adder {} depth).trans hworld, ?_, _, enter_calls s _ _ _ depth, rfl⟩
  change Table.get? (s.enter Kind.addToVariable adder depth {}).2.memories timer.id = _
  rw [enter_memories, Table.get?_insert, if_neg h.distinct.symm]

/-- Behind a tick the adder is pushed. -/
theorem follow_tick {config : ExecutorConfig} (hroom : 0 < config.maxDepth) (s : Pass σ) (time : Float) :
    ∃ room events, Event.calls events = s.calls ∧
      followAll (g.plan Catalogue.standard config) config.maxDepth 0 Kind.every timer
        (Kind.tick time) s =
          push (g.plan Catalogue.standard config) room 1 adder {} { s with events } := by
  rcases h.connections with ⟨id, hconnections⟩
  obtain ⟨room, hroom⟩ := Nat.exists_eq_succ_of_ne_zero hroom.ne'
  let conn : Connection := ⟨id, timer.id, "exec", adder.id, "exec"⟩
  have houtgoing : g.connectionsFrom timer.id = [conn] := by
    simp [connectionsFrom, hconnections, conn]
  have hopen : isOpen (Kind.every : Definition σ) (Kind.tick time) conn.fromPort = true := rfl
  have htarget : (g.plan (Catalogue.standard : Catalogue σ) config).wiring.node? conn.toNode =
      some adder := by simp [conn, h.node?_adder]
  -- What is told on the way to the adder leaves the runs as they are.
  let arrived := (s.note
    (.produced timer.id timer.kind (Kind.tick time).values.size)).record (.followed conn 0)
  refine ⟨room, arrived.events, rfl, ?_⟩
  rw [followAll, Wiring.connectionsFrom_ofGraph, houtgoing, hroom, List.foldl_cons, List.foldl_nil,
    follow_of_open hopen htarget, h.assemble_adder]
  rfl

/-- The timer is pushed first, and behind its tick the adder. -/
theorem turn {config : ExecutorConfig} (hroom : 0 < config.maxDepth) (w : World σ)
    (memories : Table NodeId Slot) :
    Turn timer name (Slot.lastTick ((memories.get? timer.id).getD none)) w
      (Executor.passEnd g Catalogue.standard config w memories) := by
  let p := g.plan (Catalogue.standard : Catalogue σ) config
  let s : Pass σ := { world := w, memories }
  let last := Slot.lastTick ((memories.get? timer.id).getD none)
  have hstart : Executor.passEnd g Catalogue.standard config w memories =
      push p config.maxDepth 0 timer {} s := by
    simp [Executor.passEnd, Plan.pass, h.startNodes, start, h.node?_timer, p, s]
  have hd : p.catalogue.get? timer.kind = some Kind.every := by
    rw [h.timerKind]
    exact Catalogue.get?_every
  have hcalls := enter_calls s Kind.every timer {} 0
  have hexecuted := enter_executed s Kind.every timer {} 0
  rcases s.enter_every timer with ⟨hworld, hmemory, houtputs⟩
  rw [hstart, push_of_mayEnter hd (Or.inl rfl)]
  rw [houtputs] at hcalls ⊢
  -- From here on only what is known of the pass behind the timer counts.
  generalize (s.enter Kind.every timer 0 {}).2 = entered at *
  by_cases hdue : Kind.Due timer last w.time
  · rw [if_pos hdue] at hcalls hmemory ⊢
    rcases h.follow_tick hroom entered w.time with ⟨room, events, hevents, hfollow⟩
    -- Only the timer has run so far.
    have hnew : adder.id ∉ ({ entered with events } : Pass σ).executed := by
      simp [hexecuted, s, h.distinct.symm]
    rcases h.push_adder config room 1 hnew with
      ⟨hadded, hkept, call, hpushed, hnode⟩
    change Turn timer name last w (followAll p config.maxDepth 0 Kind.every timer _ entered)
    rw [hfollow]
    refine ⟨?_, ?_, ?_⟩
    · rw [if_pos hdue, hadded, hworld]
    · rw [if_pos hdue, hkept]
      exact hmemory
    · rw [Event.ticks, calls_reverse, hpushed, calls, hevents, hcalls]
      simp [hdue]
  · rw [if_neg hdue] at hcalls hmemory ⊢
    refine ⟨?_, ?_, ?_⟩
    · rw [if_neg hdue]
      exact hworld
    · rw [if_neg hdue]
      exact hmemory
    · rw [Event.ticks, calls_reverse, hcalls]
      simpa [s, calls, Event.calls] using hdue

end Adder

end Graph.Counts

/-! ## Whole numbers -/

/-- The variable holds the natural number; zero is that it was never set. -/
def World.Holds {σ : Type} (w : World σ) (name : String) (n : Nat) : Prop :=
  if n = 0 then w.value? name = none
  else ∃ y, w.value? name = some (.number (.plain y)) ∧ Denotes y n

/-- Adding one is exact as long as the next number can be held. -/
theorem World.Holds.add {σ : Type} {w : World σ} {name : String} {n : Nat} (h : w.Holds name n)
    (hn : Exact (n + 1)) :
    (w.setVariable name (.number (.plain (w.total name + 1)))).Holds name (n + 1) := by
  have htotal : Denotes (w.total name) n := by
    rw [Holds] at h
    split at h
    · rename_i hzero
      rw [total, h, hzero]
      exact denotes_zero
    · rcases h with ⟨y, hy, hdenotes⟩
      rw [total, hy]
      exact hdenotes
  rw [Holds, if_neg n.succ_ne_zero]
  exact ⟨_, by rw [value?, setVariable, Table.get?_insert, if_pos rfl], htotal.add denotes_one hn⟩

/-- A timer is due if the whole time since its last tick reaches the interval. -/
theorem Kind.due_iff {timer : Node} {x last time : Float} {interval waited before : Nat}
    (hinterval : timer.number? "interval" = some x) (hx : Denotes x interval) (hpos : 0 < interval)
    (hlast : Denotes last before) (htime : Denotes time (waited + before)) (hexact : Exact waited) :
    Due timer last time ↔ interval ≤ waited := by
  have hless : (0 : Float) < x := (denotes_zero.lt_iff hx).2 hpos
  have hread : Kind.interval timer = x := by
    rw [Kind.interval, hinterval, Option.filter_some_pos (by simpa using hless), Option.getD_some]
  rw [Due, hread, (htime.sub hlast hexact).lt_iff hx, not_lt]

/-! ## Updates -/

namespace Session

variable {g : Graph} {config : ExecutorConfig} {timer adder : Node} {name : String} {x δ : Float}
  {interval length : Nat}

/-- What is known after so many updates, if the timer ticks at every `period` of them. -/
structure Clocked (g : Graph) (config : ExecutorConfig) (timer : Node) (name : String)
    (length period k : Nat) (s : Session HeadlessScene) : Prop where
  state : s.state = .playing
  scale : s.timeScale = 1
  quiet : s.world.host.restartPending = false
  plan : s.executor.plan = g.plan Catalogue.standard config
  starts : s.executor.startNodes =
    (Wiring.ofGraph g).startNodes (Catalogue.standard : Catalogue HeadlessScene)
  frame : s.frame = k
  elapsed : Denotes s.elapsed (k * length)
  last : Denotes (Slot.lastTick ((s.executor.memories.get? timer.id).getD none))
    (k / period * period * length)
  total : s.world.Holds name (k / period)

theorem period_pos (hpos : 0 < interval) (hlength : 0 < length) : 0 < interval ⌈/⌉ length := by
  rw [Nat.pos_iff_ne_zero]
  intro hzero
  have hle := (ceilDiv_le_iff_le_mul hlength).1 hzero.le
  omega

/-- Counted in whole periods, the last tick is a period ago just when the next period is full. -/
theorem period_le_iff {period k : Nat} (hperiod : 0 < period) :
    period ≤ k + 1 - k / period * period ↔ period ∣ k + 1 := by
  have hnext := Nat.succ_div (a := k) (b := period)
  by_cases hdvd : period ∣ k + 1
  · rw [if_pos hdvd] at hnext
    -- The next period is full with this update, and it began at the last tick.
    have hwhole : (k / period + 1) * period = k + 1 := by rw [← hnext, Nat.div_mul_cancel hdvd]
    rw [Nat.succ_mul] at hwhole
    exact iff_of_true (by omega) hdvd
  · rw [if_neg hdvd, Nat.add_zero] at hnext
    -- The next period is not full yet.
    have hless : k + 1 < (k / period + 1) * period :=
      (Nat.div_lt_iff_lt_mul hperiod).1 (by omega)
    rw [Nat.succ_mul] at hless
    exact iff_of_false (by omega) hdvd

/-- One update: the clock goes on, and at the end of a period the timer ticks and adds one. -/
theorem Clocked.update (hg : g.Counts timer adder name) (hroom : 0 < config.maxDepth)
    (hinterval : timer.number? "interval" = some x) (hx : Denotes x interval) (hpos : 0 < interval)
    (hδ : Denotes δ length) (hlength : 0 < length) {k : Nat}
    (hexact : ∀ j ≤ k + 1, Exact (j * length)) {s : Session HeadlessScene}
    (h : s.Clocked g config timer name length (interval ⌈/⌉ length) k) :
    (s.update δ).session.Clocked g config timer name length (interval ⌈/⌉ length) (k + 1) ∧
      (Event.ticks timer.id (s.update δ).events = true ↔ interval ⌈/⌉ length ∣ k + 1) := by
  let period := interval ⌈/⌉ length
  let last := Slot.lastTick ((s.executor.memories.get? timer.id).getD none)
  have hperiod : 0 < period := period_pos hpos hlength
  have hbefore : k / period * period ≤ k := Nat.div_mul_le_self k period
  -- The clock is exact before and after the update.
  have hdelta : Denotes (δ * s.timeScale) length := by rw [h.scale]; exact hδ.mul_one
  have htime : Denotes (s.advanced δ).time ((k + 1) * length) := by
    rw [Nat.succ_mul]
    exact h.elapsed.add hdelta (by rw [← Nat.succ_mul]; exact hexact _ le_rfl)
  -- So whether the timer is due is a question about natural numbers.
  have hdue : Kind.Due timer last (s.advanced δ).time ↔ period ∣ k + 1 := by
    have hsum : (k + 1 - k / period * period) * length + k / period * period * length =
        (k + 1) * length := by rw [← Nat.add_mul]; congr 1; omega
    rw [Kind.due_iff hinterval hx hpos h.last (hsum ▸ htime) (hexact _ (by omega)), Nat.mul_comm,
      ← ceilDiv_le_iff_le_mul hlength]
    exact period_le_iff hperiod
  have hturn : Pass.Turn timer name last (s.advanced δ) (s.updatePass δ) := by
    have hpass : s.updatePass δ =
        Executor.passEnd g Catalogue.standard config (s.advanced δ) s.executor.memories := by
      rw [updatePass, h.plan, h.starts]
      rfl
    rw [hpass]
    exact hg.turn hroom _ _
  have hcount := Nat.succ_div (a := k) (b := period)
  -- Neither of the two nodes asks for a restart.
  have hquiet : (s.updatePass δ).world.host.restartPending = false := by
    rw [hturn.world]
    split <;> exact h.quiet
  rw [update_of_quiet h.state hquiet]
  refine ⟨⟨h.state, h.scale, rfl, h.plan, h.starts, congrArg (· + 1) h.frame, htime, ?_, ?_⟩,
    hturn.ticks.trans hdue⟩
  · -- The tick is at the end of the period, and the next one begins with it.
    change Denotes (Slot.lastTick (((s.updatePass δ).memories.get? timer.id).getD none))
      ((k + 1) / period * period * length)
    rw [hturn.memory]
    by_cases hdvd : period ∣ k + 1
    · rw [if_pos (hdue.2 hdvd), Nat.div_mul_cancel hdvd]
      exact htime
    · rw [if_neg (mt hdue.1 hdvd), hcount, if_neg hdvd]
      exact h.last
  · change (s.updatePass δ).world.Holds name ((k + 1) / period)
    rw [hturn.world]
    by_cases hdvd : period ∣ k + 1
    · -- The count divides a time that can be held, so it can be held as well.
      have hless : k / period + 1 ≤ k + 1 := Nat.succ_le_succ (Nat.div_le_self k period)
      have hsmall : Exact (k / period + 1) :=
        (hexact _ hless).of_dvd (Nat.mul_pos (Nat.succ_pos _) hlength) (Nat.dvd_mul_right _ _)
      rw [if_pos (hdue.2 hdvd), hcount, if_pos hdvd]
      exact World.Holds.add (w := s.advanced δ) h.total hsmall
    · rw [if_neg (mt hdue.1 hdvd), hcount, if_neg hdvd]
      exact h.total

/-- After any number of updates the clock is right. -/
theorem Clocked.run (hg : g.Counts timer adder name) (hroom : 0 < config.maxDepth)
    (hinterval : timer.number? "interval" = some x) (hx : Denotes x interval) (hpos : 0 < interval)
    (hδ : Denotes δ length) (hlength : 0 < length) {n : Nat}
    (hexact : ∀ j ≤ n, Exact (j * length)) {s : Session HeadlessScene}
    (h : s.Clocked g config timer name length (interval ⌈/⌉ length) 0) (k : Nat) (hk : k ≤ n) :
    (s.run (List.replicate k (.update δ))).Clocked g config timer name length
      (interval ⌈/⌉ length) k := by
  induction k with
  | zero => exact h
  | succ k ih =>
    rw [List.replicate_succ', run_append]
    exact ((ih (by omega)).update hg hroom hinterval hx hpos hδ hlength
      fun j hj => hexact j (hj.trans hk)).1

/-! ## The result -/

/-- Updates of the given length, made one after the other, and a timer that ticks at every `period` of
them: until the first tick the variable is absent, and from then on it is the number of full periods. -/
structure Counting (timer : Node) (name : String) (δ : Float) (period n : Nat)
    (s : Session HeadlessScene) : Prop where
  absent : ∀ k ≤ n, k < period →
    (s.run (List.replicate k (.update δ))).world.value? name = none
  counted : ∀ k ≤ n, period ≤ k → ∃ y,
    (s.run (List.replicate k (.update δ))).world.value? name = some (.number (.plain y)) ∧
      Denotes y (k / period)
  ticks : ∀ k < n,
    let answer := (s.run (List.replicate k (.update δ))).update δ
    answer.session.frame = k + 1 ∧
      (Event.ticks timer.id answer.events = true ↔ period ∣ k + 1)

/-- A session with the right clock has counted the full periods. -/
theorem Clocked.counting (hg : g.Counts timer adder name) (hroom : 0 < config.maxDepth)
    (hinterval : timer.number? "interval" = some x) (hx : Denotes x interval) (hpos : 0 < interval)
    (hδ : Denotes δ length) (hlength : 0 < length) {n : Nat}
    (hexact : ∀ j ≤ n, Exact (j * length)) {s : Session HeadlessScene}
    (h : s.Clocked g config timer name length (interval ⌈/⌉ length) 0) :
    s.Counting timer name δ (interval ⌈/⌉ length) n := by
  have hclocked := fun k hk => h.run hg hroom hinterval hx hpos hδ hlength hexact k hk
  constructor
  case absent =>
    intro k hk hless
    have htotal := (hclocked k hk).total
    rwa [Nat.div_eq_of_lt hless, World.Holds, if_pos rfl] at htotal
  case counted =>
    intro k hk hle
    have htotal := (hclocked k hk).total
    have hperiod : 0 < interval ⌈/⌉ length := period_pos hpos hlength
    rwa [World.Holds, if_neg (Nat.div_pos hle hperiod).ne'] at htotal
  case ticks =>
    intro k hk answer
    have hnext := (hclocked k hk.le).update hg hroom hinterval hx hpos hδ hlength
      fun j hj => hexact j (hj.trans hk)
    exact ⟨hnext.1.frame, hnext.2⟩

/-- A play that just began has counted nothing. -/
theorem Begun.clocked {s : Session HeadlessScene} (h : s.Begun) (hscale : s.timeScale = 1)
    (hquiet : s.world.host.restartPending = false)
    (hplan : s.executor.plan = g.plan Catalogue.standard config)
    (hstarts : s.executor.startNodes =
      (Wiring.ofGraph g).startNodes (Catalogue.standard : Catalogue HeadlessScene))
    (timer : Node) (name : String) (length period : Nat) :
    s.Clocked g config timer name length period 0 := by
  have hvars : s.world.vars = ∅ := by rw [h.world]; rfl
  refine ⟨h.playing, hscale, hquiet, hplan, hstarts, h.frame, ?_, ?_, ?_⟩
  · rw [h.elapsed, Nat.zero_mul]
    exact denotes_zero
  · rw [h.memories, Nat.zero_div, Nat.zero_mul, Nat.zero_mul]
    exact denotes_zero
  · rw [Nat.zero_div, World.Holds, if_pos rfl, World.value?, hvars]
    rfl

/-- Whatever was done before, stop and play begin with the first update again. -/
theorem clocked_of_stopped (ids : IdSupply) (before : List Op)
    (hscale : ((fresh g config ids).run before).timeScale = 1) (timer : Node) (name : String)
    (length period : Nat) :
    ((fresh g config ids).run (before ++ [.stop, .play])).Clocked g config timer name length period
      0 := by
  let s := (fresh g config ids).run before
  have hsettled : s.stop.session.Settled :=
    settled_apply (invariant_run (I := Sound) (fun _ op hs => hs.apply op) _
      (sound_fresh g config ids) before).settled .stop
  have hbegun := begun_play (state_stop s) (hsettled.blank (state_stop s))
  have hrun : (fresh g config ids).run (before ++ [.stop, .play]) = s.stop.session.play.session :=
    run_append _ _ _
  have hkept : s.stop.session.play.session.timeScale = s.timeScale :=
    (timeScale_apply s.stop.session .play nofun).trans (timeScale_apply s .stop nofun)
  have hexecutor := run_executor (fresh g config ids) (before ++ [.stop, .play])
  rw [hrun] at hexecutor ⊢
  refine hbegun.clocked (hkept.trans hscale) ?_ hexecutor.1 hexecutor.2.1 timer name length period
  rw [world_play]
  exact hsettled.quiet

/-- A timer of a positive whole interval that adds one to a variable, under updates of a positive whole
length: as long as the time can be held, the variable counts the intervals, each rounded up to whole
updates.  It does so on a fresh session, and again from zero whenever play is stopped and begins anew. -/
theorem run_counts (g : Graph) (config : ExecutorConfig) (ids : IdSupply) (timer adder : Node)
    (name : String) (x δ : Float) (interval length n : Nat) (hg : g.Counts timer adder name)
    (hroom : 0 < config.maxDepth) (hinterval : timer.number? "interval" = some x)
    (hx : Denotes x interval) (hpos : 0 < interval) (hδ : Denotes δ length) (hlength : 0 < length)
    (hexact : ∀ k ≤ n, Exact (k * length)) :
    ((fresh g config ids).run [.play]).Counting timer name δ (interval ⌈/⌉ length) n ∧
      ∀ before, ((fresh g config ids).run before).timeScale = 1 →
        ((fresh g config ids).run (before ++ [.stop, .play])).Counting timer name δ
          (interval ⌈/⌉ length) n := by
  constructor
  · -- Stopping a session that never played does nothing.
    exact (clocked_of_stopped ids [] rfl timer name length _).counting hg hroom hinterval hx hpos hδ
      hlength hexact
  · intro before hscale
    exact (clocked_of_stopped ids before hscale timer name length _).counting hg hroom hinterval hx
      hpos hδ hlength hexact

end Session

def Node.increment : Node :=
  ((ofKind "add" "AddVar").withProperty "varName" (.text "n")).withProperty "value"
    (.number (.plain 1))

def Graph.seconds : Graph where
  nodes := [.second, .increment]
  connections := [⟨"1", "every", "exec", "add", "exec"⟩]

/-- A second is counted at every third update of 400 milliseconds, and after two updates, a stop and
another play again at the third one. -/
theorem Session.run_counts_seconds :
    let s := fresh Graph.seconds {} ⟨fun _ => "", 0⟩
    let before : List Op := [.play, .update 400, .update 400]
    Graph.seconds.Counts .second .increment "n" ∧ Denotes 1000 1000 ∧ Denotes 400 400 ∧
      (∀ k ≤ 7, Exact (k * 400)) ∧ (s.run before).timeScale = 1 ∧ 1000 ⌈/⌉ 400 = 3 ∧
      (s.run [.play]).Counting .second "n" 400 (1000 ⌈/⌉ 400) 7 ∧
      (s.run (before ++ [.stop, .play])).Counting .second "n" 400 (1000 ⌈/⌉ 400) 7 := by
  intro s before
  have hcounts : Graph.seconds.Counts .second .increment "n" :=
    ⟨Or.inl rfl, ⟨"1", rfl⟩, by decide, rfl, rfl, rfl, rfl⟩
  have hinterval : Denotes 1000 1000 := by
    have hunpack : (1000 : Float).toModel.unpack =
      .finite .positive (1000 * 2 ^ 43) (-43) (by decide) := rfl
    rw [Denotes]
    simp only [hunpack]
    norm_num
  have hlength : Denotes 400 400 := by
    have hunpack : (400 : Float).toModel.unpack =
      .finite .positive (400 * 2 ^ 44) (-44) (by decide) := rfl
    rw [Denotes]
    simp only [hunpack]
    norm_num
  have hexact : ∀ k ≤ 7, Exact (k * 400) := fun k hk => ⟨k * 400, 0, by omega, by omega, by omega⟩
  have hscale : (s.run before).timeScale = 1 := timeScale_run s before (by simp [before])
  have hrun := run_counts Graph.seconds {} ⟨fun _ => "", 0⟩ .second .increment "n" 1000 400 1000 400 7
    hcounts (by decide) rfl hinterval (by decide) hlength (by decide) hexact
  have hperiod : 1000 ⌈/⌉ 400 = 3 := by rw [Nat.ceilDiv_eq_add_pred_div]
  exact ⟨hcounts, hinterval, hlength, hexact, hscale, hperiod, hrun.1, hrun.2 before hscale⟩

end GraphScript

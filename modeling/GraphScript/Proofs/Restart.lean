import GraphScript.Proofs.SceneShift
import GraphScript.Proofs.SceneTable

/-!
# Restart — a restarted session against a new one

A session restarts when its graph asks for it, when it is reset while it plays, and when it is stopped
and played again. From then on it cannot be told from a new session of the same graph, but for the
handles that are used up and the counts that go on.

- `Session.Restarted` lists the three ways, and `Session.anew` is the new session.
- `Session.run_shift`: two sessions that differ by a `Shift` differ by the same one ever after.
- `Session.Blank` is all that a restart has to ensure; it is ensured whatever happened before.
- `Session.run_restarted` is the result.
-/

namespace GraphScript

variable (k : Shift)

/-- The session with a past. -/
def Session.shift (s : Session HeadlessScene) : Session HeadlessScene :=
  { s with world := s.world.shift k, restartCount := s.restartCount + k.restarts }

def Answer.shift (a : Answer HeadlessScene) : Answer HeadlessScene :=
  { a with session := a.session.shift k }

namespace Session

/-! ## Operations do not notice the past -/

variable (s : Session HeadlessScene)

theorem play_shift : (s.shift k).play = s.play.shift k := by
  have hstate : (s.shift k).state = s.state := rfl
  cases h : s.state <;> simp only [play, hstate, h] <;> rfl

theorem pause_shift : (s.shift k).pause = s.pause.shift k := by
  have hstate : (s.shift k).state = s.state := rfl
  unfold pause
  rw [hstate]
  split <;> rfl

theorem toggle_shift : (s.shift k).toggle = s.toggle.shift k := by
  have hstate : (s.shift k).state = s.state := rfl
  cases h : s.state with
  | stopped => simp only [toggle, hstate, h]; rfl
  | playing => simp only [toggle, hstate, h]; exact pause_shift k s
  | paused => simp only [toggle, hstate, h]; exact play_shift k s

theorem reset_shift : (s.shift k).reset = (s.reset.1.shift k, s.reset.2) := by
  have hclear : (s.shift k).world.clear = s.world.clear.shift k := World.clear_shift k s.world
  simp only [reset, hclear]
  rfl

theorem stop_shift : (s.shift k).stop = s.stop.shift k := by
  have hstate : (s.shift k).state = s.state := rfl
  unfold stop
  rw [hstate, reset_shift]
  split <;> rfl

/-- An update does not notice the past: its pass does not, and it restarts just if it would without. -/
theorem update_shift (hcatalogue : s.executor.plan.catalogue = Catalogue.standard)
    (milliseconds : Float) : (s.shift k).update milliseconds = (s.update milliseconds).shift k := by
  have hstate : (s.shift k).state = s.state := rfl
  have hrestarts : s.restartCount + k.restarts + 1 = s.restartCount + 1 + k.restarts := by
    ac_rfl
  -- The clock does not depend on the past, so the pass is the same up to its worlds.
  have hpass : (s.shift k).updatePass milliseconds =
      (s.updatePass milliseconds).mapWorld (World.shift k) :=
    Plan.pass_shift k hcatalogue s.executor.startNodes
      (s.world.advance (s.elapsed + milliseconds * s.timeScale) (milliseconds * s.timeScale))
      s.executor.memories
  have hupdated : (s.shift k).updated milliseconds = (s.updated milliseconds).shift k := by
    simp only [updated, hpass]
    rfl
  by_cases hplaying : s.state = .playing
  · have hplaying' : (s.shift k).state = .playing := hplaying
    have hpending : ((s.shift k).updatePass milliseconds).world.host.restartPending =
        (s.updatePass milliseconds).world.host.restartPending := by
      rw [hpass]
      rfl
    cases hasked : (s.updatePass milliseconds).world.host.restartPending with
    | false =>
      rw [update_of_quiet hplaying hasked, update_of_quiet hplaying' (hpending.trans hasked),
        hupdated, hpass]
      rfl
    | true =>
      rw [update_of_restart hplaying hasked, update_of_restart hplaying' (hpending.trans hasked),
        hupdated, hpass, reset_shift]
      simp only [shift, Answer.shift, hrestarts]
      rfl
  · have hplaying' : (s.shift k).state ≠ .playing := hplaying
    rw [update_of_not_playing hplaying, update_of_not_playing hplaying']
    rfl

/-- No operation notices the past. -/
theorem apply_shift (hcatalogue : s.executor.plan.catalogue = Catalogue.standard) (op : Op) :
    (s.shift k).apply op = (s.apply op).shift k := by
  cases op with
  | play => exact play_shift k s
  | pause => exact pause_shift k s
  | toggle => exact toggle_shift k s
  | stop => exact stop_shift k s
  | reset => simp only [apply, reset_shift]; rfl
  | update milliseconds => exact update_shift k s hcatalogue milliseconds
  | scale factor => rfl
  | key key down => rfl

/-- Sessions that differ by their past answer alike, and differ by the same past ever after. -/
theorem run_shift (hcatalogue : s.executor.plan.catalogue = Catalogue.standard) (ops : List Op) :
    (s.shift k).run ops = (s.run ops).shift k ∧ (s.shift k).history ops = s.history ops := by
  induction ops generalizing s with
  | nil => exact ⟨rfl, rfl⟩
  | cons op ops ih =>
    have hcatalogue' : (s.apply op).session.executor.plan.catalogue = Catalogue.standard := by
      rw [(apply_executor s op).1]
      exact hcatalogue
    have happly : (s.shift k).apply op = (s.apply op).shift k := apply_shift k s hcatalogue op
    rcases ih (s.apply op).session hcatalogue' with ⟨hrun, hhistory⟩
    constructor
    · rw [run, happly]
      exact hrun
    · rw [history, happly]
      exact congrArg ((s.apply op).events ++ ·) hhistory

end Session

/-! ## Requests for a restart -/

namespace HeadlessScene

/-- Destroying objects does not take back a request. -/
theorem restartPending_foldl_destroy (handles : List Handle) (scene : HeadlessScene) :
    (handles.foldl destroy scene).restartPending = scene.restartPending := by
  induction handles generalizing scene with
  | nil => rfl
  | cons handle handles ih =>
    rw [List.foldl_cons, ih]
    unfold destroy
    split <;> rfl

end HeadlessScene

/-- A request is not lost under changes. -/
theorem World.Changes.pending {w w' : World HeadlessScene} (h : World.Changes w w')
    (hw : w.host.restartPending = true) : w'.host.restartPending = true := by
  induction h with
  | refl => exact hw
  | tail _ hlast ih =>
    cases hlast with
    | assign name value => exact ih
    | draw => exact ih
    | spawn request hfilled hfree => exact ih
    | destroy id handle h =>
      exact (HeadlessScene.restartPending_foldl_destroy [handle] _).trans ih
    | clear => rfl

theorem Catalogue.get?_resetGame {σ : Type} [SceneHost σ] :
    (standard : Catalogue σ).get? "ResetGame" = some Kind.resetGame :=
  get?_of_mem_standard (d := Kind.resetGame) (by simp [Kind.standard])

/-- After a pass in which the game was reset, a restart is asked for, whatever ran afterwards. -/
theorem Plan.pending_pass {p : Plan HeadlessScene} (hcatalogue : p.catalogue = Catalogue.standard)
    {starts : List NodeId} {world : World HeadlessScene} {memories : Table NodeId Slot}
    (h : ∃ call ∈ (p.pass starts world memories).calls, call.node.kind = "ResetGame") :
    (p.pass starts world memories).world.host.restartPending = true := by
  refine p.invariant_pass (I := fun s => (∃ call ∈ s.calls, call.node.kind = "ResetGame") →
    s.world.host.restartPending = true) ?_ (fun _ _ _ hs => hs) (fun _ _ hs => hs) ?_ starts ?_ h
  · intro s e he hs
    rw [Pass.calls_record he]
    exact hs
  · intro s d node cause inputs hd hs h
    rw [hcatalogue] at hd
    rw [Pass.call_world]
    rw [Pass.call_calls] at h
    rcases h with ⟨call, hcall, hreset⟩
    rcases List.mem_cons.1 hcall with rfl | hcall
    · -- This run is the one that asks.
      rw [hreset, Catalogue.get?_resetGame, Option.some.injEq] at hd
      rw [← hd]
      rfl
    · -- It was an earlier one, and no run takes its request back.
      have hmem : d ∈ Kind.standard := (Catalogue.mem_of_standard hd).1
      exact (Kind.changes_of_mem hmem _).pending (hs ⟨call, hcall, hreset⟩)
  · rintro ⟨call, hcall, -⟩
    cases hcall

namespace Session

/-! ## Restarts -/

/-- The ways in which a session restarts. -/
inductive Restarted (s : Session HeadlessScene) : Session HeadlessScene → Prop where
  /-- By an update in which a node reset the game. -/
  | byGraph (milliseconds : Float)
      (h : ∃ call ∈ Event.calls (s.update milliseconds).events, call.node.kind = "ResetGame") :
      Restarted s (s.update milliseconds).session
  | byReset (h : s.state = .playing) : Restarted s s.reset.1
  | byStop : Restarted s s.stop.session.play.session

/-- A new session of the graph, with the speed, the held keys and the supply of ids of another one. -/
def anew (g : Graph) (config : ExecutorConfig) (s : Session HeadlessScene) :
    Session HeadlessScene :=
  { fresh g config s.world.ids with
    world := World.ofHost { held := s.world.host.held } s.world.ids
    timeScale := s.timeScale }

/-- The past of a session: all handles and counts so far. -/
def past (s : Session HeadlessScene) : Shift where
  handles := s.world.host.lastHandle
  destroyed := s.world.host.destroyed
  requests := s.world.host.requestCount
  restarts := s.restartCount

/-- Nothing is left of a run but its past and what the host holds. -/
structure Blank (s : Session HeadlessScene) : Prop where
  world : s.world = World.ofHost s.world.host s.world.ids
  memories : s.executor.memories = ∅
  passes : s.executor.frame = 0

/-- What holds between any two operations: no request is pending, and a stopped session is blank. -/
structure Settled (s : Session HeadlessScene) : Prop where
  quiet : s.world.host.restartPending = false
  blank : s.state = .stopped → s.Blank

variable {s : Session HeadlessScene}

/-- A reset leaves a blank session. -/
theorem blank_reset (s : Session HeadlessScene) : s.reset.1.Blank := ⟨rfl, rfl, rfl⟩

theorem quiet_reset (h : s.world.host.restartPending = false) :
    s.reset.1.world.host.restartPending = false :=
  (HeadlessScene.restartPending_foldl_destroy _ _).trans h

/-- Blankness does not depend on the host, nor on the mode and the counts of the session. -/
theorem Blank.congr {t : Session HeadlessScene} (h : s.Blank)
    (hworld : t.world = { s.world with host := t.world.host }) (hexecutor : t.executor = s.executor) :
    t.Blank := by
  refine ⟨?_, by rw [hexecutor]; exact h.memories, by rw [hexecutor]; exact h.passes⟩
  have hids : t.world.ids = s.world.ids := by rw [hworld]
  rw [hids]
  exact hworld.trans (congrArg (fun w => { w with host := t.world.host }) h.world)

/-- Operations lead from settled sessions to settled ones. -/
theorem settled_apply (h : s.Settled) (op : Op) : (s.apply op).session.Settled := by
  cases op with
  | play =>
    refine ⟨by rw [apply, world_play]; exact h.quiet, ?_⟩
    intro hstopped
    cases hstate : s.state <;> simp [apply, play, hstate, accept, refuse] at hstopped
  | pause =>
    refine ⟨by rw [apply, world_pause]; exact h.quiet, ?_⟩
    intro hstopped
    by_cases hstate : s.state = .playing
    · simp [apply, pause, hstate, accept] at hstopped
    · simp only [apply, pause, hstate, if_false] at hstopped ⊢
      exact h.blank hstopped
  | toggle =>
    refine ⟨by rw [apply, world_toggle]; exact h.quiet, ?_⟩
    intro hstopped
    cases hstate : s.state with
    | stopped =>
      simp only [apply, toggle, hstate]
      exact h.blank hstate
    | playing => simp [apply, toggle, pause, hstate, accept] at hstopped
    | paused => simp [apply, toggle, play, hstate, accept] at hstopped
  | stop =>
    -- Only a stop ends a play, and it leaves nothing behind.
    cases hactive : s.state.isActive with
    | false =>
      simp only [apply, stop, hactive]
      exact h
    | true =>
      simp only [apply, stop, hactive, if_true]
      exact ⟨quiet_reset h.quiet, fun _ => (blank_reset s).congr rfl rfl⟩
  | reset => exact ⟨quiet_reset h.quiet, fun _ => blank_reset s⟩
  | update milliseconds =>
    by_cases hplaying : s.state = .playing
    · cases hasked : (s.updatePass milliseconds).world.host.restartPending with
      | false =>
        rw [apply, update_of_quiet hplaying hasked]
        refine ⟨rfl, ?_⟩
        intro hstopped
        cases hplaying.symm.trans hstopped
      | true =>
        rw [apply, update_of_restart hplaying hasked]
        refine ⟨quiet_reset (s := s.updated milliseconds) rfl, ?_⟩
        intro hstopped
        cases hplaying.symm.trans hstopped
    · rw [apply, update_of_not_playing hplaying]
      exact h
  | scale factor => exact ⟨h.quiet, fun hstopped => (h.blank hstopped).congr rfl rfl⟩
  | key key down => exact ⟨h.quiet, fun hstopped => (h.blank hstopped).congr rfl rfl⟩

theorem state_stop (s : Session HeadlessScene) : s.stop.session.state = .stopped := by
  cases h : s.state <;> simp [stop, PlayState.isActive, h, refuse]

/-! ## What a restart ensures -/

/-- A play that just began: blank, at time zero. -/
structure Begun (s : Session HeadlessScene) : Prop extends s.Blank where
  playing : s.state = .playing
  frame : s.frame = 0
  elapsed : s.elapsed = 0

/-- Play from a blank stop begins. -/
theorem begun_play (hstopped : s.state = .stopped) (h : s.Blank) : s.play.session.Begun := by
  simp only [play, hstopped, accept]
  exact ⟨h.congr rfl rfl, rfl, rfl, rfl⟩

/-- Nodes that ran behind the reset of the game may have left something in the world. It goes with the
restart that the reset asked for. -/
theorem begun_update (hcatalogue : s.executor.plan.catalogue = Catalogue.standard)
    {milliseconds : Float}
    (h : ∃ call ∈ Event.calls (s.update milliseconds).events, call.node.kind = "ResetGame") :
    (s.update milliseconds).session.Begun := by
  by_cases hplaying : s.state = .playing
  · cases hasked : (s.updatePass milliseconds).world.host.restartPending with
    | false =>
      rw [update_of_quiet hplaying hasked] at h
      have hcalls : ∃ call ∈ (s.updatePass milliseconds).calls, call.node.kind = "ResetGame" := by
        simpa [Event.calls, Pass.calls] using h
      -- The pass cannot have ended without a request.
      have hpending : (s.updatePass milliseconds).world.host.restartPending = true :=
        Plan.pending_pass hcatalogue hcalls
      rw [hasked] at hpending
      cases hpending
    | true =>
      rw [update_of_restart hplaying hasked]
      exact ⟨(blank_reset (s.updated milliseconds)).congr rfl rfl, hplaying, rfl, rfl⟩
  · rw [update_of_not_playing hplaying] at h
    rcases h with ⟨call, hcall, -⟩
    cases hcall

namespace Restarted

variable {t : Session HeadlessScene}

/-- A restart is a run of operations. -/
theorem exists_run (h : s.Restarted t) : ∃ ops, t = s.run ops := by
  cases h with
  | byGraph milliseconds h => exact ⟨[.update milliseconds], rfl⟩
  | byReset h => exact ⟨[.reset], rfl⟩
  | byStop => exact ⟨[.stop, .play], rfl⟩

/-- All three ways lead to a play that just began. -/
theorem begun (h : s.Restarted t) (hcatalogue : s.executor.plan.catalogue = Catalogue.standard)
    (hs : s.Settled) : t.Begun := by
  cases h with
  | byGraph milliseconds h => exact begun_update hcatalogue h
  | byReset h => exact ⟨blank_reset s, h, rfl, rfl⟩
  | byStop =>
    -- A session that was stopped all along is blank too.
    have hstopped : s.stop.session.Settled := settled_apply hs .stop
    exact begun_play (state_stop s) (hstopped.blank (state_stop s))

end Restarted

/-- Of a play that just began, without objects, nothing but its past tells it from a new one. -/
theorem Begun.eq_shift {g : Graph} {config : ExecutorConfig} (h : s.Begun)
    (hquiet : s.world.host.restartPending = false) (hlive : s.world.host.live = ∅)
    (hplan : s.executor.plan = (fresh g config s.world.ids).executor.plan)
    (hstarts : s.executor.startNodes = (fresh g config s.world.ids).executor.startNodes)
    (hissues : s.executor.issues = (fresh g config s.world.ids).executor.issues) :
    s = (anew g config s).play.session.shift s.past := by
  have hhost : s.world.host = ({ held := s.world.host.held } : HeadlessScene).shift s.past := by
    -- Taken apart, both scenes list the same counts and no objects.
    rcases s with ⟨state, executor, ⟨entities, vars, time, delta, ⟨last, live, destroyed, held,
      requests, pending⟩, ids⟩, scale, frame, elapsed, restarts⟩
    simp only at hquiet hlive
    subst hquiet hlive
    simp [HeadlessScene.shift, past, Shift.handle]
    rfl
  have hworld : s.world =
      (World.ofHost { held := s.world.host.held } s.world.ids).shift s.past := by
    calc s.world = World.ofHost s.world.host s.world.ids := h.world
      _ = World.ofHost (({ held := s.world.host.held } : HeadlessScene).shift s.past)
            s.world.ids := by rw [← hhost]
      _ = (World.ofHost { held := s.world.host.held } s.world.ids).shift s.past := rfl
  have hexecutor : s.executor = (fresh g config s.world.ids).executor := by
    have hmemories := h.memories
    have hpasses := h.passes
    generalize s.executor = e at hplan hstarts hissues hmemories hpasses ⊢
    rcases e with ⟨plan, starts, issues, memories, frame⟩
    simp only at hplan hstarts hissues hmemories hpasses
    subst hplan hstarts hissues hmemories hpasses
    rfl
  have hrestarts : s.restartCount = 0 + s.restartCount := (UInt32.zero_add _).symm
  calc s = { state := .playing, executor := (fresh g config s.world.ids).executor,
             world := (World.ofHost { held := s.world.host.held } s.world.ids).shift s.past,
             timeScale := s.timeScale, frame := 0, elapsed := 0, restartCount := 0 + s.restartCount } := by
        rw [← hworld, ← hexecutor, ← hrestarts, ← h.playing, ← h.frame, ← h.elapsed]
    _ = (anew g config s).play.session.shift s.past := rfl

/-- After a restart a session goes on like a new one, whatever was done before and whatever is done
afterwards: it only keeps its past. Both tell of the same events. -/
theorem run_restarted (g : Graph) (config : ExecutorConfig) (ids : IdSupply) (before : List Op)
    {s : Session HeadlessScene} (h : ((fresh g config ids).run before).Restarted s)
    (after : List Op) :
    s.run after = ((anew g config s).play.session.run after).shift s.past ∧
      s.history after = (anew g config s).play.session.history after := by
  rcases h.exists_run with ⟨ops, hops⟩
  have hrun : s = (fresh g config ids).run (before ++ ops) := by
    rw [run_append]
    exact hops
  have hsettled : ((fresh g config ids).run before).Settled :=
    invariant_run (I := Settled) (fun _ op hs => settled_apply hs op) _
      ⟨rfl, fun _ => ⟨rfl, rfl, rfl⟩⟩ before
  have hquiet : s.Settled :=
    hops ▸ invariant_run (I := Settled) (fun _ op hs => settled_apply hs op) _ hsettled ops
  have hbegun : s.Begun := by
    refine h.begun ?_ hsettled
    rw [(run_executor (fresh g config ids) before).1]
    rfl
  have hpaired : s.world.Paired := by
    rw [hrun]
    exact (inStep_run rfl (World.Paired.of_empty rfl rfl rfl) (before ++ ops)).1
  -- A restart destroys the objects of all entities, and there are no others.
  have hlive : s.world.host.live = ∅ := by
    refine hpaired.live_of_entities ?_
    rw [hbegun.world]
    rfl
  -- The executor is that of the graph, whatever was done.
  rcases run_executor (fresh g config ids) (before ++ ops) with ⟨hplan, hstarts, hissues⟩
  rw [← hrun] at hplan hstarts hissues
  have hshift : s = (anew g config s).play.session.shift s.past :=
    hbegun.eq_shift hquiet.quiet hlive hplan hstarts hissues
  have hrest := run_shift s.past (anew g config s).play.session rfl after
  rw [← hshift] at hrest
  exact hrest

def renewal : Graph where
  nodes := [.ofKind "start" "OnStart", .ofKind "reset" "ResetGame", .ofKind "mark" "SetVar"]
  connections :=
    [⟨"first", "start", "exec", "reset", "exec"⟩, ⟨"then", "reset", "exec", "mark", "exec"⟩]

/-- The first update of such a graph restarts it, and the next one restarts it again. -/
theorem run_renewal :
    ((fresh renewal {} ⟨fun _ => "", 0⟩).run [.play]).Restarted
        (((fresh renewal {} ⟨fun _ => "", 0⟩).run [.play]).update 16).session ∧
      (((fresh renewal {} ⟨fun _ => "", 0⟩).run [.play]).update 16).session.run [.update 16, .stop] =
        ((anew renewal {} (((fresh renewal {} ⟨fun _ => "", 0⟩).run [.play]).update
          16).session).play.session.run [.update 16, .stop]).shift ⟨0, 0, 1, 1⟩ := by
  have hkinds : (Event.calls (((fresh renewal {} ⟨fun _ => "", 0⟩).run [.play]).update
      16).events).map (·.node.kind) = ["OnStart", "ResetGame", "SetVar"] := rfl
  have hreset : "ResetGame" ∈ (Event.calls (((fresh renewal {} ⟨fun _ => "", 0⟩).run
      [.play]).update 16).events).map (·.node.kind) := by
    rw [hkinds]
    decide
  have hrestarted : ((fresh renewal {} ⟨fun _ => "", 0⟩).run [.play]).Restarted
      (((fresh renewal {} ⟨fun _ => "", 0⟩).run [.play]).update 16).session :=
    .byGraph 16 (List.mem_map.1 hreset)
  have hpast : (((fresh renewal {} ⟨fun _ => "", 0⟩).run [.play]).update 16).session.past =
      ⟨0, 0, 1, 1⟩ := rfl
  refine ⟨hrestarted, ?_⟩
  rw [← hpast]
  exact (run_restarted renewal {} ⟨fun _ => "", 0⟩ [.play] hrestarted [.update 16, .stop]).1

end Session

end GraphScript

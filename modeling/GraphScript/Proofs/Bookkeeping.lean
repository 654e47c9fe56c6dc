import GraphScript.Proofs.ExecutorRuns
import GraphScript.Proofs.Restart

/-!
# Bookkeeping — the clocks and counts of a session agree

A session keeps a count of frames, a clock and a count of restarts; its executor counts passes, and its
world keeps a clock and may hold a request for a restart.  They are set back at different places.

- `Session.Timed` — between two operations, counts and clocks say the same;
- `Plan.pending_pass_iff` — after a pass a restart is asked for just if a node reset the game in it;
- `Session.restartCount_run` — a session counts the updates for which that is the case, in 32 bits;
- `Session.run_detour` — a pause leaves no trace;
- `Session.inOrder_run` — all of it together, after any operations.
-/

namespace GraphScript

/-! ## The clock of the world -/

/-- A pass over the standard kinds does not move the clock. -/
theorem Plan.time_pass {σ : Type} [SceneHost σ] {p : Plan σ}
    (hcatalogue : p.catalogue = Catalogue.standard) (starts : List NodeId) (world : World σ)
    (memories : Table NodeId Slot) : (p.pass starts world memories).world.time = world.time := by
  refine p.pass_world (P := fun w => w.time = world.time) ?_ rfl
  intro kind d hd a ha
  rw [hcatalogue] at hd
  exact (Catalogue.time_of_standard hd a).trans ha

/-! ## Who asks for a restart -/

/-- Nothing but the reset of the game asks for a restart. -/
theorem Kind.pending_of_mem {d : Definition HeadlessScene} (hd : d ∈ standard)
    (hkind : d.kind ≠ "ResetGame") (a : Activation HeadlessScene) :
    (d.run a).world.host.restartPending = a.world.host.restartPending := by
  cases d, hd using standard_cases with
  | onStart => rw [world_onStart]
  | onKey => rw [world_onKey]
  | every => rw [world_every]
  | branch | setVariable | addToVariable | getVariable | getEntity => rfl
  | compare => rw [world_compare]
  | spawn =>
    -- A new object is no request, whether its id was drawn or not.
    cases hname : a.node.text? "entityId" with
    | some id => simp only [spawn, hname]; split <;> rfl
    | none => simp only [spawn, hname]; split <;> rfl
  | destroy =>
    simp only [destroy]
    split
    · rfl
    · exact HeadlessScene.restartPending_foldl_destroy [_] _
  | resetGame => exact absurd rfl hkind

def Event.resetsGame (events : List Event) : Bool :=
  (Event.calls events).any (·.node.kind = "ResetGame")

theorem Event.resetsGame_iff {events : List Event} :
    resetsGame events = true ↔ ∃ call ∈ Event.calls events, call.node.kind = "ResetGame" := by
  simp [resetsGame]

/-- If no restart was asked for before a pass, then after it one is asked for just if a node reset the
game in it. -/
theorem Plan.pending_pass_iff {p : Plan HeadlessScene}
    (hcatalogue : p.catalogue = Catalogue.standard) (starts : List NodeId)
    {world : World HeadlessScene} (hquiet : world.host.restartPending = false)
    (memories : Table NodeId Slot) :
    (p.pass starts world memories).world.host.restartPending =
      Event.resetsGame (p.pass starts world memories).events := by
  rw [Bool.eq_iff_iff, Event.resetsGame_iff]
  refine ⟨?_, Plan.pending_pass hcatalogue⟩
  refine p.invariant_pass (I := fun s => s.world.host.restartPending = true →
    ∃ call ∈ s.calls, call.node.kind = "ResetGame") ?_ (fun _ _ _ hs => hs) (fun _ _ hs => hs) ?_
    starts ?_
  · intro s e he hs
    rw [Pass.calls_record he]
    exact hs
  · intro s d node cause inputs hd hs hpending
    rw [Pass.call_calls]
    by_cases hkind : node.kind = "ResetGame"
    · exact ⟨_, List.mem_cons_self, hkind⟩
    · -- This run did not ask, so the request was there before.
      rw [hcatalogue] at hd
      rcases Catalogue.mem_of_standard hd with ⟨hmem, hdkind⟩
      rw [Pass.call_world, Pass.outcome, Kind.pending_of_mem hmem (hdkind ▸ hkind)] at hpending
      rcases hs hpending with ⟨call, hcall, hreset⟩
      exact ⟨call, List.mem_cons_of_mem _ hcall, hreset⟩
  · intro hpending
    cases hquiet.symm.trans hpending

namespace Session

variable {s : Session HeadlessScene}

/-! ## Updates -/

/-- The world in which the pass of an update by so many milliseconds begins. -/
def advanced (s : Session HeadlessScene) (milliseconds : Float) : World HeadlessScene :=
  s.world.advance (s.elapsed + milliseconds * s.timeScale) (milliseconds * s.timeScale)

/-- What an update answers that is made while the session plays: it made one pass, behind which nothing
happened but notes.  If a node reset the game in the pass, the session started anew. -/
structure OnePass (s : Session HeadlessScene) (milliseconds : Float) (a : Answer HeadlessScene) :
    Prop where
  done : a.done = true
  events : ∃ notes : List Note,
    a.events = (s.executor.execute (s.advanced milliseconds)).2.2 ++ notes.map .noted
  session : a.session =
    if Event.resetsGame a.events then
      { (s.updated milliseconds).reset.1 with restartCount := s.restartCount + 1 }
    else s.updated milliseconds

/-- What a playing session without a request does in an update. -/
theorem onePass_update (hcatalogue : s.executor.plan.catalogue = Catalogue.standard)
    (hquiet : s.world.host.restartPending = false) (hplaying : s.state = .playing)
    (milliseconds : Float) : s.OnePass milliseconds (s.update milliseconds) := by
  have hadvanced : (s.advanced milliseconds).host.restartPending = false := hquiet
  have hasked : (s.updatePass milliseconds).world.host.restartPending =
      Event.resetsGame (s.updatePass milliseconds).events :=
    Plan.pending_pass_iff hcatalogue s.executor.startNodes hadvanced s.executor.memories
  have hreverse : Event.resetsGame (s.updatePass milliseconds).events.reverse =
      Event.resetsGame (s.updatePass milliseconds).events := by
    simp [Event.resetsGame, Event.calls, List.filterMap_reverse]
  cases hresets : Event.resetsGame (s.updatePass milliseconds).events with
  | false =>
    rw [update_of_quiet hplaying (hasked.trans hresets)]
    refine ⟨rfl, ⟨[], (List.append_nil _).symm⟩, ?_⟩
    simp only [hreverse, hresets, Bool.false_eq_true, if_false]
  | true =>
    rw [update_of_restart hplaying (hasked.trans hresets)]
    refine ⟨rfl, ⟨[.restarting (s.frame + 1), .executorReset], rfl⟩, ?_⟩
    -- The notes about the restart are no runs.
    have hnotes : ∀ events, Event.resetsGame (events ++
        [.noted (.restarting (s.frame + 1)), .noted .executorReset]) = Event.resetsGame events := by
      intro events
      simp [Event.resetsGame, Event.calls]
    simp only [hnotes, hreverse, hresets, if_true]

/-! ## Clocks and counts -/

/-- The session and its executor count alike, and there is one time. -/
structure Timed (s : Session HeadlessScene) : Prop where
  frame : s.frame = s.executor.frame
  time : s.world.time = s.elapsed

/-- A reset sets back all clocks and counts at once. -/
theorem timed_reset (s : Session HeadlessScene) : s.reset.1.Timed := ⟨rfl, rfl⟩

/-- An update counts a frame on both sides, and moves both clocks to the same time. -/
theorem Timed.updated (hcatalogue : s.executor.plan.catalogue = Catalogue.standard) (h : s.Timed)
    (milliseconds : Float) : (s.updated milliseconds).Timed where
  frame := congrArg (· + 1) h.frame
  time := Plan.time_pass hcatalogue s.executor.startNodes (s.advanced milliseconds)
    s.executor.memories

/-- No operation sets one of the clocks or counts apart from the others. -/
theorem timed_apply (hcatalogue : s.executor.plan.catalogue = Catalogue.standard) (hs : s.Settled)
    (h : s.Timed) (op : Op) : (s.apply op).session.Timed := by
  cases op with
  | play =>
    cases hstate : s.state with
    | stopped =>
      -- Only the counts of the session are set back here. The others are at zero already.
      have hblank := hs.blank hstate
      have htime : s.world.time = 0 := by rw [hblank.world]; rfl
      simp only [apply, play, hstate, accept]
      exact ⟨hblank.passes.symm, htime⟩
    | playing => simpa only [apply, play, hstate, refuse] using h
    | paused =>
      simp only [apply, play, hstate, accept]
      exact ⟨h.frame, h.time⟩
  | pause =>
    simp only [apply, pause]
    split
    · exact ⟨h.frame, h.time⟩
    · exact h
  | toggle =>
    cases hstate : s.state with
    | stopped => simpa only [apply, toggle, hstate, refuse] using h
    | playing =>
      simp only [apply, toggle, pause, hstate, accept, if_true]
      exact ⟨h.frame, h.time⟩
    | paused =>
      simp only [apply, toggle, play, hstate, accept]
      exact ⟨h.frame, h.time⟩
  | stop =>
    simp only [apply, stop]
    split
    · exact ⟨rfl, rfl⟩
    · exact h
  | reset => exact timed_reset s
  | update milliseconds =>
    by_cases hplaying : s.state = .playing
    · rw [apply, (onePass_update hcatalogue hs.quiet hplaying milliseconds).session]
      split
      · exact ⟨rfl, rfl⟩
      · exact h.updated hcatalogue milliseconds
    · rw [apply, update_of_not_playing hplaying]
      exact h
  | scale factor => exact ⟨h.frame, h.time⟩
  | key key down => exact ⟨h.frame, h.time⟩

/-! ## Restarts -/

/-- Is the operation an update in which a node resets the game? -/
def renews (s : Session HeadlessScene) : Op → Bool
  | .update milliseconds => Event.resetsGame (s.update milliseconds).events
  | _ => false

def renewals (s : Session HeadlessScene) : List Op → Nat
  | [] => 0
  | op :: ops => (if s.renews op then 1 else 0) + renewals (s.apply op).session ops

/-- Nothing but an update in which a node resets the game adds to the count. -/
theorem restartCount_apply (hcatalogue : s.executor.plan.catalogue = Catalogue.standard)
    (hs : s.Settled) (op : Op) :
    (s.apply op).session.restartCount =
      s.restartCount + .ofNat (if s.renews op then 1 else 0) := by
  have hkept : s.restartCount = s.restartCount + .ofNat 0 := (UInt32.add_zero _).symm
  cases op with
  | play => cases hstate : s.state <;> simp [apply, play, hstate, accept, refuse, renews]
  | pause => simp only [apply, pause]; split <;> exact hkept
  | toggle =>
    cases hstate : s.state <;> simp [apply, toggle, pause, play, hstate, accept, refuse, renews]
  | stop => simp only [apply, stop]; split <;> exact hkept
  | update milliseconds =>
    by_cases hplaying : s.state = .playing
    · rw [apply, (onePass_update hcatalogue hs.quiet hplaying milliseconds).session, renews]
      split
      · rfl
      · exact hkept
    · rw [apply, renews, update_of_not_playing hplaying]
      exact hkept
  | reset | scale | key => exact hkept

/-! ## Any operations -/

/-- What has to be known of a session so that it stays in order. -/
structure Sound (s : Session HeadlessScene) : Prop where
  standard : s.executor.plan.catalogue = Catalogue.standard
  settled : s.Settled
  timed : s.Timed
  paired : s.world.Paired

/-- Operations lead from sound sessions to sound ones. -/
theorem Sound.apply (h : s.Sound) (op : Op) : (s.apply op).session.Sound where
  standard := by
    rw [(apply_executor s op).1]
    exact h.standard
  settled := settled_apply h.settled op
  timed := timed_apply h.standard h.settled h.timed op
  paired := paired_apply h.standard h.paired op

/-- So every session is sound that began with a new scene. -/
theorem sound_fresh (g : Graph) (config : ExecutorConfig) (ids : IdSupply) :
    (fresh g config ids).Sound where
  standard := rfl
  settled := ⟨rfl, fun _ => ⟨rfl, rfl, rfl⟩⟩
  timed := ⟨rfl, rfl⟩
  paired := .of_empty rfl rfl rfl

/-- A session counts the updates in which a node resets the game, and wraps around with its 32 bits. -/
theorem restartCount_run (h : s.Sound) (ops : List Op) :
    (s.run ops).restartCount = s.restartCount + .ofNat (s.renewals ops) := by
  induction ops generalizing s with
  | nil => exact (UInt32.add_zero _).symm
  | cons op ops ih =>
    calc (s.run (op :: ops)).restartCount
        = (s.apply op).session.restartCount + .ofNat ((s.apply op).session.renewals ops) :=
          ih (h.apply op)
      _ = s.restartCount + .ofNat (if s.renews op then 1 else 0) +
            .ofNat ((s.apply op).session.renewals ops) := by
          rw [restartCount_apply h.standard h.settled op]
      _ = s.restartCount + .ofNat (s.renewals (op :: ops)) := by
          rw [UInt32.add_assoc, ← UInt32.ofNat_add, renewals]

/-- While a session does not play, updates do nothing. -/
theorem run_updates (h : s.state ≠ .playing) (durations : List Float) :
    s.run (durations.map .update) = s ∧ s.history (durations.map .update) = [] := by
  induction durations with
  | nil => exact ⟨rfl, rfl⟩
  | cons milliseconds durations ih =>
    have hrefused : s.apply (.update milliseconds) = s.refuse := update_of_not_playing h
    rw [List.map_cons, run, history, hrefused]
    exact ih

/-- A pause leads back to where it began, however often the session is updated in between. -/
theorem run_detour (h : s.state = .playing) (durations : List Float) :
    s.run (.pause :: durations.map .update ++ [.play]) = s := by
  have hpaused : (s.apply .pause).session = { s with state := .paused } := by
    simp only [apply, pause, h, if_true, accept]
  have hwaiting := (run_updates (s := { s with state := .paused }) PlayState.noConfusion durations).1
  rw [List.cons_append, run, hpaused, run_append, hwaiting]
  -- Nothing but the state was changed, and it is changed back.
  change { s with state := .playing } = s
  rw [← h]

/-! ## The result -/

structure Cleared (s : Session HeadlessScene) : Prop where
  entities : s.world.entities = ∅
  vars : s.world.vars = ∅
  memories : s.executor.memories = ∅
  live : s.world.host.live = ∅
  time : s.world.time = 0
  delta : s.world.delta = 0
  frame : s.frame = 0

/-- Between two operations a session is in order.

- Its counts and clocks agree, and no restart is pending. While it is stopped, all is cleared.
- An update makes one pass while the session plays, and does nothing at any other time.
- A pause, any updates and a return to play leave the session as it was. -/
structure InOrder (s : Session HeadlessScene) : Prop extends s.Timed where
  quiet : s.world.host.restartPending = false
  cleared : s.state = .stopped → s.Cleared
  updates : ∀ milliseconds, s.state = .playing → s.OnePass milliseconds (s.update milliseconds)
  refuses : ∀ milliseconds, s.state ≠ .playing →
    s.update milliseconds = { done := false, session := s }
  detour : s.state = .playing → ∀ durations : List Float,
    s.run (.pause :: durations.map .update ++ [.play]) = s

/-- A session that is stopped has been reset, or was never played. -/
theorem Sound.cleared (h : s.Sound) (hstopped : s.state = .stopped) : s.Cleared := by
  have hblank := h.settled.blank hstopped
  have hentities : s.world.entities = ∅ := by rw [hblank.world]; rfl
  constructor
  case entities => exact hentities
  case vars => rw [hblank.world]; rfl
  case memories => exact hblank.memories
  case live => exact h.paired.live_of_entities hentities -- every object has an entity
  case time => rw [hblank.world]; rfl
  case delta => rw [hblank.world]; rfl
  case frame => exact h.timed.frame.trans hblank.passes

end Session

end GraphScript

import GraphScript.Kind.Standard
import GraphScript.Proofs.PassSteps
import GraphScript.Session

/-!
# SessionRuns — sessions under any sequence of operations

- `Session.Op` lists what can be done to a session on a headless scene; `Session.apply` does it.
- `Session.run` and `Session.history` are the session after a list of operations and what happened
  on the way; `Session.fresh` is the session with which everything begins.
- `Session.invariant_run`: what every operation preserves, every run preserves.
-/

namespace GraphScript

namespace Session

inductive Op where
  | play
  | pause
  | toggle
  | stop
  | reset
  | update (milliseconds : Float)
  | scale (factor : Float)
  | key (key : Key) (down : Bool)

/-- A stopped session of a graph over the standard kinds and a new headless scene. -/
def fresh (g : Graph) (config : ExecutorConfig) (ids : IdSupply) : Session HeadlessScene where
  executor := (Executor.ofGraph g Catalogue.standard config).1
  world := World.ofHost {} ids

variable (s : Session HeadlessScene)

def setKey (key : Key) (down : Bool) : Session HeadlessScene :=
  { s with world := { s.world with host := s.world.host.setKey key down } }

def apply : Op → Answer HeadlessScene
  | .play => s.play
  | .pause => s.pause
  | .toggle => s.toggle
  | .stop => s.stop
  | .reset => { done := true, session := s.reset.1, events := s.reset.2 }
  | .update milliseconds => s.update milliseconds
  | .scale factor => { done := true, session := { s with timeScale := factor } }
  | .key key down => { done := true, session := s.setKey key down }

def run (s : Session HeadlessScene) : List Op → Session HeadlessScene
  | [] => s
  | op :: ops => run (s.apply op).session ops

/-- What happens under a list of operations, in order. -/
def history (s : Session HeadlessScene) : List Op → List Event
  | [] => []
  | op :: ops => (s.apply op).events ++ history (s.apply op).session ops

theorem run_append (s : Session HeadlessScene) (before after : List Op) :
    s.run (before ++ after) = (s.run before).run after := by
  induction before generalizing s with
  | nil => rfl
  | cons op before ih => exact ih (s.apply op).session

/-- What every operation preserves, every run preserves. -/
theorem invariant_run {I : Session HeadlessScene → Prop}
    (happly : ∀ s op, I s → I (s.apply op).session) (s : Session HeadlessScene) (hs : I s)
    (ops : List Op) : I (s.run ops) := by
  induction ops generalizing s with
  | nil => exact hs
  | cons op ops ih => exact ih _ (happly s op hs)

/-! ## What an update does -/

/-- The pass that an update by so many milliseconds makes. -/
def updatePass (milliseconds : Float) : Pass HeadlessScene :=
  let delta := milliseconds * s.timeScale
  s.executor.plan.pass s.executor.startNodes (s.world.advance (s.elapsed + delta) delta)
    s.executor.memories

/-- The session behind the pass of an update, a request for a restart being taken back. -/
def updated (milliseconds : Float) : Session HeadlessScene :=
  let pass := s.updatePass milliseconds
  { s with
    executor := { s.executor with memories := pass.memories, frame := s.executor.frame + 1 }
    world := { pass.world with host := { pass.world.host with restartPending := false } }
    frame := s.frame + 1
    elapsed := s.elapsed + milliseconds * s.timeScale }

variable {s : Session HeadlessScene} {milliseconds : Float}

theorem update_of_not_playing (h : s.state ≠ .playing) : s.update milliseconds = s.refuse := by
  simp [update, h]

/-- Without a request for a restart an update is its pass. -/
theorem update_of_quiet (h : s.state = .playing)
    (hquiet : (s.updatePass milliseconds).world.host.restartPending = false) :
    s.update milliseconds =
      { done := true
        session := s.updated milliseconds
        events := (s.updatePass milliseconds).events.reverse } := by
  have hquiet' : ((s.executor.execute (s.world.advance (s.elapsed + milliseconds * s.timeScale)
      (milliseconds * s.timeScale))).2.1.takeRestart).1 = false := hquiet
  simp only [update, updated, h, if_true, hquiet', Bool.false_eq_true, if_false]
  rfl

/-- A restart that was asked for: play goes on from the start. -/
theorem update_of_restart (h : s.state = .playing)
    (hasked : (s.updatePass milliseconds).world.host.restartPending = true) :
    s.update milliseconds =
      { done := true
        session := { (s.updated milliseconds).reset.1 with restartCount := s.restartCount + 1 }
        events := (s.updatePass milliseconds).events.reverse ++
          [.noted (.restarting (s.frame + 1)), .noted .executorReset] } := by
  have hasked' : ((s.executor.execute (s.world.advance (s.elapsed + milliseconds * s.timeScale)
      (milliseconds * s.timeScale))).2.1.takeRestart).1 = true := hasked
  simp only [update, updated, h, if_true, hasked']
  rfl

/-! ## What operations do to the world -/

theorem world_play (s : Session HeadlessScene) : s.play.session.world = s.world := by
  cases h : s.state <;> simp [play, h, accept, refuse]

theorem world_pause (s : Session HeadlessScene) : s.pause.session.world = s.world := by
  by_cases h : s.state = .playing <;> simp [pause, h, accept, refuse]

theorem world_toggle (s : Session HeadlessScene) : s.toggle.session.world = s.world := by
  cases h : s.state with
  | stopped => simp [toggle, h, refuse]
  | playing => simpa [toggle, h] using world_pause s
  | paused => simpa [toggle, h] using world_play s

/-- What clearings, the clock, keys, the end of a request and passes preserve in the world, every
operation preserves. -/
theorem apply_world {P : World HeadlessScene → Prop} (hclear : ∀ w, P w → P w.clear)
    (hclock : ∀ w time delta, P w → P (w.advance time delta))
    (hkey : ∀ w key down, P w → P { w with host := w.host.setKey key down })
    (htaken : ∀ w, P w → P { w with host := { w.host with restartPending := false } })
    (s : Session HeadlessScene)
    (hpass : ∀ w, P w → P (s.executor.plan.pass s.executor.startNodes w s.executor.memories).world)
    (op : Op) (hs : P s.world) : P (s.apply op).session.world := by
  -- Stopping, resetting and restarting all do the same to the world.
  have hreset : ∀ w, P w → P (w.clear.advance 0 0) := fun w hw => hclock _ _ _ (hclear w hw)
  cases op with
  | play => rw [apply, world_play]; exact hs
  | pause => rw [apply, world_pause]; exact hs
  | toggle => rw [apply, world_toggle]; exact hs
  | stop =>
    cases h : s.state.isActive with
    | false => simpa [apply, stop, h, refuse] using hs
    | true => simpa [apply, stop, h, reset] using hreset s.world hs
  | reset => exact hreset s.world hs
  | update milliseconds =>
    by_cases hplaying : s.state = .playing
    · have hupdated : P (s.updated milliseconds).world := htaken _ (hpass _ (hclock _ _ _ hs))
      cases hasked : (s.updatePass milliseconds).world.host.restartPending with
      | false => rw [apply, update_of_quiet hplaying hasked]; exact hupdated
      | true => rw [apply, update_of_restart hplaying hasked]; exact hreset _ hupdated
    · rw [apply, update_of_not_playing hplaying]
      exact hs
  | scale factor => exact hs
  | key key down => exact hkey _ _ _ hs

/-! ## What operations never change -/

/-- No operation changes the graph, its start nodes or its issues. -/
theorem apply_executor (s : Session HeadlessScene) (op : Op) :
    (s.apply op).session.executor.plan = s.executor.plan ∧
      (s.apply op).session.executor.startNodes = s.executor.startNodes ∧
      (s.apply op).session.executor.issues = s.executor.issues := by
  cases op with
  | play => cases h : s.state <;> simp [apply, play, h, accept, refuse]
  | pause => by_cases h : s.state = .playing <;> simp [apply, pause, h, accept, refuse]
  | toggle =>
    cases h : s.state <;> simp [apply, toggle, pause, play, h, accept, refuse]
  | stop =>
    cases h : s.state.isActive <;> simp [apply, stop, h, reset, Executor.reset, refuse]
  | reset => exact ⟨rfl, rfl, rfl⟩
  | update milliseconds =>
    by_cases hplaying : s.state = .playing
    · cases hasked : (s.updatePass milliseconds).world.host.restartPending with
      | false => simp [apply, update_of_quiet hplaying hasked, updated]
      | true => simp [apply, update_of_restart hplaying hasked, updated, reset, Executor.reset]
    · simp [apply, update_of_not_playing hplaying, refuse]
  | scale factor => exact ⟨rfl, rfl, rfl⟩
  | key key down => exact ⟨rfl, rfl, rfl⟩

/-- A session keeps the executor of its graph, memories and count of passes apart. -/
theorem run_executor (s : Session HeadlessScene) (ops : List Op) :
    (s.run ops).executor.plan = s.executor.plan ∧
      (s.run ops).executor.startNodes = s.executor.startNodes ∧
      (s.run ops).executor.issues = s.executor.issues := by
  induction ops generalizing s with
  | nil => exact ⟨rfl, rfl, rfl⟩
  | cons op ops ih =>
    rcases ih (s.apply op).session with ⟨hplan, hstarts, hissues⟩
    rcases apply_executor s op with ⟨hplan', hstarts', hissues'⟩
    exact ⟨hplan.trans hplan', hstarts.trans hstarts', hissues.trans hissues'⟩

/-- The speed changes only where it is set. -/
theorem timeScale_apply (s : Session HeadlessScene) (op : Op) (h : ∀ factor, op ≠ .scale factor) :
    (s.apply op).session.timeScale = s.timeScale := by
  cases op with
  | play => cases hstate : s.state <;> simp [apply, play, hstate, accept, refuse]
  | pause => by_cases hstate : s.state = .playing <;> simp [apply, pause, hstate, accept, refuse]
  | toggle => cases hstate : s.state <;> simp [apply, toggle, pause, play, hstate, accept, refuse]
  | stop => cases hactive : s.state.isActive <;> simp [apply, stop, hactive, reset, refuse]
  | reset => rfl
  | update milliseconds =>
    by_cases hplaying : s.state = .playing
    · cases hasked : (s.updatePass milliseconds).world.host.restartPending with
      | false => simp [apply, update_of_quiet hplaying hasked, updated]
      | true => simp [apply, update_of_restart hplaying hasked, updated, reset]
    · simp [apply, update_of_not_playing hplaying, refuse]
  | scale factor => exact absurd rfl (h factor)
  | key key down => rfl

theorem timeScale_run (s : Session HeadlessScene) (ops : List Op)
    (h : ∀ op ∈ ops, ∀ factor, op ≠ .scale factor) : (s.run ops).timeScale = s.timeScale := by
  induction ops generalizing s with
  | nil => rfl
  | cons op ops ih =>
    rw [List.forall_mem_cons] at h
    exact (ih _ h.2).trans (timeScale_apply s op h.1)

end Session

end GraphScript

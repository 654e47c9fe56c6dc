import GraphScript.Proofs.EditorData
import GraphScript.Session

/-!
# MirroredSessions — matching graphs are played alike

Nothing that can be done to a session tells apart graphs that differ in data of the editor only.

- `Session.Act` and `Session.performAll` — what can be done to a session, whatever its host is;
- `Session.carriedBy` — a session with another executor behind it, everything else being as it was;
- `Session.perform_carriedBy` — one operation leads such sessions to such sessions;
- `Session.mirrored_performAll` — any operations on sessions of matching graphs over the standard kinds
  have the same outcome, and run matching nodes in the same order.
-/

namespace GraphScript

variable {σ : Type}

/-! ## Passes -/

namespace Executor

def holding (e' e : Executor σ) : Executor σ :=
  { e' with memories := e.memories, frame := e.frame }

variable {e e' : Executor σ}

/-- Executors with plans that mirror each other make mirrored passes. -/
theorem execute_holding (hplan : e.plan.Mirrors e'.plan) (hstarts : e'.startNodes = e.startNodes)
    (world : World σ) :
    ((e'.holding e).execute world).1 = e'.holding (e.execute world).1 ∧
      ((e'.holding e).execute world).2.1 = (e.execute world).2.1 ∧
      List.Forall₂ Call.Matches (e.runs world) ((e'.holding e).runs world) := by
  have hpass := hplan.pass e.startNodes world e.memories
  rw [runs_eq, runs_eq, List.forall₂_reverse_iff]
  simp only [execute, holding, hstarts, hpass.memories]
  exact ⟨trivial, hpass.world, hpass.calls⟩

end Executor

namespace Session

/-! ## Operations -/

/-- What can be done to a session, and what a host may do to itself in between. -/
inductive Act (σ : Type) where
  | play
  | pause
  | toggle
  | stop
  | reset
  | update (milliseconds : Float)
  | scale (factor : Float)
  | host (change : σ → σ)

/-- The session with another executor behind it, which takes over memories and count. -/
def carriedBy (s : Session σ) (e : Executor σ) : Session σ :=
  { s with executor := e.holding s.executor }

variable [SceneHost σ]

def perform (s : Session σ) : Act σ → Answer σ
  | .play => s.play
  | .pause => s.pause
  | .toggle => s.toggle
  | .stop => s.stop
  | .reset => { done := true, session := s.reset.1, events := s.reset.2 }
  | .update milliseconds => s.update milliseconds
  | .scale factor => { done := true, session := { s with timeScale := factor } }
  | .host change =>
    { done := true, session := { s with world := { s.world with host := change s.world.host } } }

def performAll (s : Session σ) : List (Act σ) → Session σ × List Event
  | [] => (s, [])
  | act :: acts =>
    let answer := s.perform act
    let (s, events) := answer.session.performAll acts
    (s, answer.events ++ events)

/-- A session of the graph over the standard kinds, before anything is done to it. -/
def ofGraph (g : Graph) (config : ExecutorConfig) (world : World σ) : Session σ where
  executor := (Executor.ofGraph g Catalogue.standard config).1
  world

/-! ## One operation -/

section Perform

variable {s : Session σ} {e : Executor σ}

/-- No operation changes the graph behind a session. -/
theorem perform_executor (s : Session σ) (act : Act σ) :
    (s.perform act).session.executor.plan = s.executor.plan ∧
      (s.perform act).session.executor.startNodes = s.executor.startNodes := by
  cases act with
  | play =>
    simp only [perform, play]
    split <;> exact ⟨rfl, rfl⟩
  | pause =>
    simp only [perform, pause]
    split <;> exact ⟨rfl, rfl⟩
  | toggle =>
    cases hstate : s.state <;> simp [perform, toggle, pause, play, hstate, accept, refuse]
  | stop =>
    simp only [perform, stop]
    split <;> exact ⟨rfl, rfl⟩
  | update milliseconds =>
    simp only [perform, update]
    split
    · split <;> exact ⟨rfl, rfl⟩
    · exact ⟨rfl, rfl⟩
  | reset | scale | host => exact ⟨rfl, rfl⟩

/-- What an update makes of a session when its pass is over: it goes on, or begins anew if the graph has
asked for that. -/
def afterPass (s : Session σ) (milliseconds : Float) (pass : Executor σ × World σ × List Event) :
    Answer σ :=
  let (asked, world) := pass.2.1.takeRestart
  let next : Session σ :=
    { s with
      executor := pass.1
      world
      frame := s.frame + 1
      elapsed := s.elapsed + milliseconds * s.timeScale }
  if asked then
    let (s, more) := ({ next with restartCount := next.restartCount + 1 } : Session σ).reset
    { done := true, session := s, events := pass.2.2 ++ .noted (.restarting next.frame) :: more }
  else { done := true, session := next, events := pass.2.2 }

theorem update_of_playing (h : s.state = .playing) (milliseconds : Float) :
    s.update milliseconds = s.afterPass milliseconds (s.executor.execute (s.world.advance
      (s.elapsed + milliseconds * s.timeScale) (milliseconds * s.timeScale))) := by
  rw [update, if_pos h]
  rfl

/-- What follows a pass depends on the world alone. -/
theorem afterPass_carriedBy (milliseconds : Float) {pass pass' : Executor σ × World σ × List Event}
    (hexecutor : pass'.1 = e.holding pass.1) (hworld : pass'.2.1 = pass.2.1)
    (hcalls : List.Forall₂ Call.Matches (Event.calls pass.2.2) (Event.calls pass'.2.2)) :
    ((s.carriedBy e).afterPass milliseconds pass').session =
        (s.afterPass milliseconds pass).session.carriedBy e ∧
      List.Forall₂ Call.Matches (Event.calls (s.afterPass milliseconds pass).events)
        (Event.calls ((s.carriedBy e).afterPass milliseconds pass').events) := by
  obtain ⟨executor', world', events'⟩ := pass'
  obtain rfl : executor' = e.holding pass.1 := hexecutor
  obtain rfl : world' = pass.2.1 := hworld
  unfold afterPass
  cases hasked : pass.2.1.takeRestart.1 with
  | true =>
    -- The restart adds notes to what happened, and no runs.
    simp only [hasked, if_true]
    refine ⟨rfl, ?_⟩
    simpa [Event.calls, List.filterMap_append, reset, Executor.reset] using hcalls
  | false =>
    simp only [hasked, Bool.false_eq_true, if_false]
    exact ⟨rfl, hcalls⟩

/-- One operation leads a session and the session carried by another executor to such sessions again, if
the plans of both executors mirror each other. -/
theorem perform_carriedBy (hplan : s.executor.plan.Mirrors e.plan)
    (hstarts : e.startNodes = s.executor.startNodes) (act : Act σ) :
    ((s.carriedBy e).perform act).session = (s.perform act).session.carriedBy e ∧
      List.Forall₂ Call.Matches (Event.calls (s.perform act).events)
        (Event.calls ((s.carriedBy e).perform act).events) := by
  cases act with
  | update milliseconds =>
    by_cases hplaying : s.state = .playing
    · rw [perform, perform, update_of_playing hplaying, update_of_playing (s := s.carriedBy e) hplaying]
      have hpass := Executor.execute_holding hplan hstarts (s.world.advance
        (s.elapsed + milliseconds * s.timeScale) (milliseconds * s.timeScale))
      exact afterPass_carriedBy milliseconds hpass.1 hpass.2.1 hpass.2.2
    · simp only [perform, update, carriedBy, hplaying, if_false]
      exact ⟨rfl, .nil⟩
  | reset | scale | host => exact ⟨rfl, .nil⟩
  | play | pause | toggle | stop =>
    -- All else depends on the mode of the session.
    obtain ⟨state, executor, world, timeScale, frame, elapsed, restarts⟩ := s
    cases state <;> exact ⟨rfl, .nil⟩

end Perform

/-! ## Any operations -/

/-- What is left of two sessions, with what happened in them, is the same: the mode, the world with its
host and its supply of ids, the memories of all nodes, and all counts.  Matching nodes have run in the same
order, with the same inputs and outputs. -/
structure Mirrored (r r' : Session σ × List Event) : Prop where
  state : r'.1.state = r.1.state
  world : r'.1.world = r.1.world
  memories : r'.1.executor.memories = r.1.executor.memories
  passes : r'.1.executor.frame = r.1.executor.frame
  timeScale : r'.1.timeScale = r.1.timeScale
  frame : r'.1.frame = r.1.frame
  elapsed : r'.1.elapsed = r.1.elapsed
  restarts : r'.1.restartCount = r.1.restartCount
  calls : List.Forall₂ Call.Matches (Event.calls r.2) (Event.calls r'.2)

/-- Whatever is done to both sessions, one stays the other with a different executor behind it. -/
theorem performAll_carriedBy {s : Session σ} {e : Executor σ}
    (hplan : s.executor.plan.Mirrors e.plan) (hstarts : e.startNodes = s.executor.startNodes)
    (acts : List (Act σ)) :
    ((s.carriedBy e).performAll acts).1 = (s.performAll acts).1.carriedBy e ∧
      List.Forall₂ Call.Matches (Event.calls (s.performAll acts).2)
        (Event.calls ((s.carriedBy e).performAll acts).2) := by
  induction acts generalizing s with
  | nil => exact ⟨rfl, .nil⟩
  | cons act acts ih =>
    rcases perform_carriedBy hplan hstarts act with ⟨hsession, hfirst⟩
    rcases s.perform_executor act with ⟨hplan', hstarts'⟩
    -- The graphs behind the sessions are still those with which they began.
    rcases ih (hplan' ▸ hplan) (hstarts.trans hstarts'.symm) with ⟨hend, hrest⟩
    simp only [performAll, hsession, Event.calls, List.filterMap_append] at hfirst hrest ⊢
    exact ⟨hend, List.rel_append hfirst hrest⟩

/-- Graphs that differ in data of the editor only are played alike.  They have the same start nodes, and
whatever is done to their sessions, beginning in the same world, has the same outcome. -/
theorem mirrored_performAll {g h : Graph} (hmatch : g.Matches h) (config : ExecutorConfig)
    (world : World σ) (acts : List (Act σ)) :
    (ofGraph h config world).executor.startNodes = (ofGraph g config world).executor.startNodes ∧
      Mirrored ((ofGraph g config world).performAll acts) ((ofGraph h config world).performAll acts) := by
  have hstarts : (ofGraph h config world).executor.startNodes =
      (ofGraph g config world).executor.startNodes := hmatch.startNodes _
  have hplan : (ofGraph g config world).executor.plan.Mirrors (ofGraph h config world).executor.plan :=
    hmatch.plan _ config fun _ _ hd => Kind.blind_of_mem (Catalogue.mem_of_standard hd).1
  have hcarried : (ofGraph g config world).carriedBy (ofGraph h config world).executor =
      ofGraph h config world := rfl
  have hacts := performAll_carriedBy hplan hstarts acts
  rw [hcarried] at hacts
  rcases hacts with ⟨hend, hcalls⟩
  refine ⟨hstarts, ?_⟩
  constructor
  case calls => exact hcalls
  all_goals
    rw [hend]
    rfl

end Session

/-- A spawner and a counter, as the author has drawn them. -/
def Graph.drawn : Graph where
  nodes :=
    [.ofKind "start" "OnStart", .ofKind "clock" "Every",
     ((Node.ofKind "spawn" "Spawn").withProperty "sprite" (.text "box")).withProperty "tag" (.text "new"),
     .ofKind "count" "AddVar"]
  connections :=
    [⟨"edge-1", "start", "exec", "spawn", "exec"⟩, ⟨"edge-2", "clock", "exec", "count", "exec"⟩]

/-- The same graph after an editor has moved and labelled nodes, and a loader has sorted everything. -/
def Graph.redrawn : Graph where
  nodes :=
    [(Node.ofKind "start" "OnStart").withLabel "Begin", .ofKind "clock" "Every",
     { ((Node.ofKind "spawn" "Spawn").withProperty "tag" (.text "new")).withProperty "sprite" (.text "box")
        with position := { x := .plain 4, y := .plain 2 } },
     .ofKind "count" "AddVar"]
  connections :=
    [⟨"a", "clock", "exec", "count", "exec"⟩, ⟨"b", "start", "exec", "spawn", "exec"⟩]

/-- Both are played alike, for two frames and a stop. -/
theorem Session.mirrored_redrawn :
    let world : World HeadlessScene := .ofHost {} ⟨fun n => toString n, 0⟩
    let acts : List (Act HeadlessScene) := [.play, .update 16, .host (·.setKey .space true), .update 16, .stop]
    Graph.drawn.Matches Graph.redrawn ∧
      Mirrored ((ofGraph Graph.drawn {} world).performAll acts)
        ((ofGraph Graph.redrawn {} world).performAll acts) := by
  intro world acts
  have hspawn : ∀ key, (Graph.redrawn.nodes[2]).property? key = (Graph.drawn.nodes[2]).property? key := by
    intro key
    by_cases hsprite : "sprite" = key
    · subst hsprite
      rfl
    · by_cases htag : "tag" = key
      · subst htag
        rfl
      · simp [Graph.drawn, Graph.redrawn, Node.property?, Node.withProperty, Table.get?_insert,
          hsprite, htag]
  have hmatch : Graph.drawn.Matches Graph.redrawn := by
    constructor
    case nodes =>
      exact .cons ⟨rfl, rfl, fun _ => rfl⟩ (.cons ⟨rfl, rfl, fun _ => rfl⟩
        (.cons ⟨rfl, rfl, hspawn⟩ (.cons ⟨rfl, rfl, fun _ => rfl⟩ .nil)))
    case outgoing => decide
    case incoming => decide
  exact ⟨hmatch, (mirrored_performAll hmatch {} world acts).2⟩

end GraphScript

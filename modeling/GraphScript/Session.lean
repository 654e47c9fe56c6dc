import GraphScript.Executor

/-!
# Session — playing a graph frame by frame

- A `Session` is stopped, playing or paused. While it plays, every update advances the clock and
  makes one pass.
- A restart that the graph asked for takes place after the pass: world, clock, memories and counts
  go back to their start, and play goes on.
-/

namespace GraphScript

inductive PlayState where
  | stopped
  | playing
  | paused
  deriving DecidableEq, Repr, Inhabited

namespace PlayState

def name : PlayState → String
  | stopped => "Stopped"
  | playing => "Playing"
  | paused => "Paused"

/-- Is a play under way, going on or paused? -/
def isActive (s : PlayState) : Bool := s ≠ stopped

def isPlaying (s : PlayState) : Bool := s = playing

end PlayState

structure Session (σ : Type) where
  state : PlayState := .stopped
  executor : Executor σ
  world : World σ
  timeScale : Float := 1
  /-- Updates since the start or the last restart. -/
  frame : Nat := 0
  /-- Milliseconds since the start or the last restart. -/
  elapsed : Float := 0
  restartCount : UInt32 := 0

/-- What an operation answers: did it do something, the session after it, and what happened. -/
structure Answer (σ : Type) where
  done : Bool
  session : Session σ
  events : List Event := []

namespace Session

variable {σ : Type}

/-- The restarts that the graph asked for. Behind `2 ^ 32 - 1` the count begins at zero again. -/
def restarts (s : Session σ) : Nat := s.restartCount.toNat

def refuse (s : Session σ) : Answer σ := { done := false, session := s }

def accept (s : Session σ) (n : Note) : Answer σ :=
  { done := true, session := s, events := [.noted n] }

def play (s : Session σ) : Answer σ :=
  match s.state with
  | .stopped =>
    ({ s with state := .playing, frame := 0, elapsed := 0 } : Session σ).accept
      (.entered s.executor.startNodes.length)
  | .paused => ({ s with state := .playing } : Session σ).accept .resumed
  | .playing => s.refuse

def pause (s : Session σ) : Answer σ :=
  if s.state = .playing then ({ s with state := .paused } : Session σ).accept .paused
  else s.refuse

def toggle (s : Session σ) : Answer σ :=
  match s.state with
  | .playing => s.pause
  | .paused => s.play
  | .stopped => s.refuse

variable [SceneHost σ]

/-- Go back to the start: an empty world at time zero, no memories, no counts. -/
def reset (s : Session σ) : Session σ × List Event :=
  let (executor, notes) := s.executor.reset
  ({ s with
      world := s.world.clear.advance 0 0
      executor
      frame := 0
      elapsed := 0 }, notes.map .noted)

def stop (s : Session σ) : Answer σ :=
  if s.state.isActive then
    let (s, events) := s.reset
    { done := true, session := { s with state := .stopped }, events := events ++ [.noted .stopped] }
  else s.refuse

/-- Advance the clock by so many milliseconds, scaled, and make one pass. -/
def update (s : Session σ) (milliseconds : Float) : Answer σ :=
  if s.state = .playing then
    let delta := milliseconds * s.timeScale
    let elapsed := s.elapsed + delta
    let frame := s.frame + 1
    let (executor, world, events) := s.executor.execute (s.world.advance elapsed delta)
    let (asked, world) := world.takeRestart
    let s := { s with executor, world, frame, elapsed }
    if asked then
      let (s, more) := ({ s with restartCount := s.restartCount + 1 } : Session σ).reset
      { done := true, session := s, events := events ++ .noted (.restarting frame) :: more }
    else { done := true, session := s, events }
  else s.refuse

end Session

end GraphScript

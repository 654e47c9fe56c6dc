import GraphScript.Key
import GraphScript.Table
import GraphScript.Value

/-!
# Scene — the host that owns objects and input

- `SceneHost` is what a running graph asks of its host: objects, held keys and restarts.
- `HeadlessScene` is a host without a screen; it records what it was asked for.
-/

namespace GraphScript

/-- The host's own name for an object. -/
abbrev Handle := Nat

structure SpawnRequest where
  id : EntityId
  sprite : String
  x : Float
  y : Float
  isStatic : Bool := false
  hasGravity : Bool := true
  tag : Option String := none
  deriving DecidableEq

/-- What a running graph asks of its host. -/
class SceneHost (σ : Type) where
  /-- Make an object. -/
  spawn : σ → SpawnRequest → Handle × σ
  /-- Remove an object. -/
  destroy : σ → Handle → σ
  isKeyDown : σ → Key → Bool
  /-- Ask for a restart after the current frame. -/
  requestRestart : σ → σ
  /-- Was a restart asked for? The request is taken back. -/
  takeRestart : σ → Bool × σ

structure HeadlessScene where
  /-- The handle that was given out last. -/
  lastHandle : Handle := 0
  live : Table Handle SpawnRequest := ∅
  destroyed : Nat := 0
  held : Key → Bool := fun _ => false
  requestCount : UInt32 := 0
  restartPending : Bool := false

namespace HeadlessScene

/-- The restarts asked for so far, counted in 32 bits. -/
def restartRequests (s : HeadlessScene) : Nat := s.requestCount.toNat

def setKey (s : HeadlessScene) (key : Key) (down : Bool) : HeadlessScene :=
  { s with held := fun k => if k = key then down else s.held k }

/-- Make an object under a handle that was never used. -/
def spawn (s : HeadlessScene) (request : SpawnRequest) : Handle × HeadlessScene :=
  let handle := s.lastHandle + 1
  (handle, { s with lastHandle := handle, live := s.live.insert handle request })

/-- Remove an object; one that is not alive is not counted. -/
def destroy (s : HeadlessScene) (handle : Handle) : HeadlessScene :=
  if s.live.contains handle then
    { s with live := s.live.erase handle, destroyed := s.destroyed + 1 }
  else s

instance : SceneHost HeadlessScene where
  spawn := spawn
  destroy := destroy
  isKeyDown s key := s.held key
  requestRestart s := { s with requestCount := s.requestCount + 1, restartPending := true }
  takeRestart s := (s.restartPending, { s with restartPending := false })

end HeadlessScene

end GraphScript

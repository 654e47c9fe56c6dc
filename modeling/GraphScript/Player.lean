import GraphScript.Kind.Standard
import GraphScript.PlayConfig
import GraphScript.Session

/-!
# Player — playing a configured graph without a screen

- `Player.frame` applies the key events of a frame and updates the session once.
- `Player.run` loads the graph and plays all frames on a fresh headless scene.
-/

namespace GraphScript.Player

def applyKeys (scene : HeadlessScene) (events : List KeyEvent) : HeadlessScene :=
  events.foldl (fun scene e => scene.setKey e.key e.down) scene

def frame (c : PlayConfig) (n : Nat) (s : Session HeadlessScene) : Answer HeadlessScene :=
  let world := { s.world with host := applyKeys s.world.host (c.keysAt n) }
  ({ s with world } : Session HeadlessScene).update c.frameTime

/-- Play so many frames from frame `n` on. Events are kept last one first. -/
def frames (c : PlayConfig) : (count n : Nat) → Session HeadlessScene → List Event →
    Session HeadlessScene × List Event
  | 0, _, s, events => (s, events)
  | count + 1, n, s, events =>
    let a := frame c n s
    frames c count (n + 1) a.session (a.events.reverseAux events)

def play (c : PlayConfig) (g : Graph) (supply : IdSupply) : Session HeadlessScene × List Event :=
  let (executor, notes) := Executor.ofGraph g Catalogue.standard c.executor
  let a := Session.play { executor, world := World.ofHost {} supply }
  let (s, events) := frames c c.frames 1 a.session []
  (s, notes.map .noted ++ a.events ++ events.reverse)

/-- Load the graph of a configuration and play it. -/
def run {m : Type → Type} [Monad m] (store : Store m) (supply : IdSupply) (c : PlayConfig) :
    m (Except LoadError (Session HeadlessScene × List Event)) := do
  match ← Graph.load store supply c.graph with
  | .error e => pure (.error e)
  | .ok (g, supply, notes) =>
    let (s, events) := play c g supply
    pure (.ok (s, notes.map .noted ++ events))

end GraphScript.Player

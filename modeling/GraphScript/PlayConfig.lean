import GraphScript.File.Load
import GraphScript.File.Written

/-!
# PlayConfig — which graph to play, how long and with which keys

- A `PlayConfig` is read from a `.ron` file. Any other file, and a `.graph.ron` one, is itself the
  graph, played with the defaults.
- `keysAt` lists the key events of a frame in the order of the file.
-/

namespace GraphScript

/-- A key goes down or up at a frame. -/
structure KeyEvent where
  frame : Nat
  key : Key
  down : Bool
  deriving DecidableEq, Inhabited

def defaultLogFilter : String := "nodeplay=info"

structure PlayConfig where
  graph : String := ""
  /-- Milliseconds from frame to frame. -/
  frameTime : Float := 16
  frames : Nat := 600
  executor : ExecutorConfig := {}
  keys : List KeyEvent := []
  logFilter : String := defaultLogFilter

namespace Shape

variable {R : Type → Type} [Functor R] (f : Format R)

structure KeyEventParts where
  frame : Option Nat := none
  key : Option Key := none
  down : Option Bool := none

def keyEvent : Record R KeyEventParts KeyEvent where
  name := "KeyEvent"
  fields :=
    [⟨"frame", (·.frame.isSome), (fun a p => { p with frame := some a }) <$> f.natural "u64"⟩,
     ⟨"key", (·.key.isSome), (fun a p => { p with key := some a }) <$> f.choice Key.choice⟩,
     ⟨"down", (·.down.isSome), (fun a p => { p with down := some a }) <$> f.flag⟩]
  start := {}
  finish p := return {
    frame := ← require "frame" p.frame
    key := ← require "key" p.key
    down := ← require "down" p.down }

structure PlayConfigParts where
  graph : Option String := none
  frameTime : Option Float := none
  frames : Option Nat := none
  executor : Option ExecutorConfig := none
  keys : Option (List KeyEvent) := none
  logFilter : Option String := none

/-- Play configurations; every field has a default. -/
def playConfig : Record R PlayConfigParts PlayConfig where
  name := "PlayConfig"
  fields :=
    [⟨"graph", (·.graph.isSome), (fun a p => { p with graph := some a }) <$> f.path⟩,
     ⟨"frame_ms", (·.frameTime.isSome), (fun a p => { p with frameTime := some a }) <$> f.number⟩,
     ⟨"frames", (·.frames.isSome), (fun a p => { p with frames := some a }) <$> f.natural "u64"⟩,
     ⟨"executor", (·.executor.isSome),
       (fun a p => { p with executor := some a }) <$> f.record (executorConfig f)⟩,
     ⟨"keys", (·.keys.isSome),
       (fun a p => { p with keys := some a }) <$> f.list (f.record (keyEvent f))⟩,
     ⟨"log_filter", (·.logFilter.isSome), (fun a p => { p with logFilter := some a }) <$> f.text⟩]
  start := {}
  finish p :=
    let c : PlayConfig := {}
    return {
      graph := p.graph.getD c.graph
      frameTime := p.frameTime.getD c.frameTime
      frames := p.frames.getD c.frames
      executor := p.executor.getD c.executor
      keys := p.keys.getD c.keys
      logFilter := p.logFilter.getD c.logFilter }

end Shape

def KeyEvent.toTree (e : KeyEvent) : Tree :=
  .record [("frame", .natural e.frame), ("key", .choice e.key.name), ("down", .flag e.down)]

def PlayConfig.toTree (c : PlayConfig) : Tree :=
  .record
    [("graph", .text c.graph), ("frame_ms", .number c.frameTime), ("frames", .natural c.frames),
     ("executor", c.executor.toTree), ("keys", .list (c.keys.map KeyEvent.toTree)),
     ("log_filter", .text c.logFilter)]

namespace PlayConfig

def ofRon (text : String) : Except Ron.PlacedFault PlayConfig :=
  Ron.readText (Ron.format.record (Shape.playConfig Ron.format)) text

/-- Does the path name a play configuration, and not a graph? -/
def isConfigPath (path : String) : Bool :=
  (Path.extension? path).any (·.toLower = "ron") && !(Path.stem? path).any (·.endsWith ".graph")

/-- Load a play configuration. Its graph is looked for beside its own file. -/
def load {m : Type → Type} [Monad m] (store : Store m) (path : String) :
    m (Except LoadError PlayConfig) := do
  if isConfigPath path then
    match ← store.readText path with
    | .error cause => pure (.error (.unreadableConfig path cause))
    | .ok text =>
      pure do
        let c ← (ofRon text).mapError .invalidConfig
        match Path.parent? path with
        | some dir => pure { c with graph := Path.join dir c.graph }
        | none => pure c
  else pure (.ok { graph := path })

def keysAt (c : PlayConfig) (frame : Nat) : List KeyEvent := c.keys.filter (·.frame = frame)

end PlayConfig

end GraphScript

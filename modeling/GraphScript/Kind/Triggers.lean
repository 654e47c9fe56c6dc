import GraphScript.Definition

/-!
# Kind.Triggers — nodes that start a pass

- `onStart` fires once, `onKey` while a key is held, `every` when an interval has elapsed.
-/

namespace GraphScript.Kind

variable {σ : Type}

/-- Fires in the first pass only. Later runs end with empty outputs. -/
def onStart : Definition σ where
  kind := "OnStart"
  category := .event
  label := "On Start"
  description := "Fires once when the game starts"
  outputs := [.control "exec"]
  frameTrigger := true
  run a :=
    let (started, notes) := (a.restore : Started × List Note)
    if started.hasRun then { a.finish (some {}) notes with memory := Slot.set started }
    else
      { a.finish (some (.fire "exec")) (notes ++ [.startFired a.node.id]) with
        memory := Slot.set (Started.mk true) }

def onKey [SceneHost σ] : Definition σ where
  kind := "OnKey"
  category := .event
  label := "On Key"
  description := "Fires every frame while a key is held"
  outputs := [.control "exec", { id := "key", type := .string }]
  frameTrigger := true
  run a :=
    let name := (a.node.text? "key").getD "SPACE"
    match Key.parse? name with
    | none => a.finish none [.keyUnknown a.node.id name]
    | some key =>
      if a.world.isKeyDown key then
        a.finish (some ((Outputs.fire "exec").set "key" (.text key.name)))
      else a.finish none

/-- The interval of a timer that names none, in milliseconds. -/
def defaultInterval : Float := 1000

/-- The interval of a timer: its property, where that is a positive number. -/
def interval (node : Node) : Float :=
  ((node.number? "interval").filter (0 < ·)).getD defaultInterval

/-- Fires when the interval has elapsed since the last tick, and starts the next one then. -/
def every : Definition σ where
  kind := "Every"
  category := .event
  label := "Every (ms)"
  description := "Fires each time the interval has elapsed"
  outputs := [.control "exec", { id := "time", type := .number }]
  frameTrigger := true
  run a :=
    let interval := interval a.node
    let (ticked, notes) := (a.restore : Ticked × List Note)
    if a.world.time - ticked.last < interval then
      { a.finish none notes with memory := Slot.set ticked }
    else
      { a.finish (some ((Outputs.fire "exec").set "time" (.number a.world.time)))
          (notes ++ [.timerFired a.node.id interval a.world.time]) with
        memory := Slot.set (Ticked.mk a.world.time) }

end GraphScript.Kind

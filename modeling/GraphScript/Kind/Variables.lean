import GraphScript.Definition

/-!
# Kind.Variables — nodes that read and write variables

- `setVariable`, `addToVariable` and `getVariable`; a variable that was never set counts as zero.
-/

namespace GraphScript.Kind

variable {σ : Type}

/-- The variable that a node names in the given property. -/
def variableName (node : Node) (property : String) : String :=
  (node.text? property).getD "variable"

def setVariable : Definition σ where
  kind := "SetVar"
  category := .logic
  label := "Set Variable"
  inputs := [.control "exec", { id := "value", type := .any }]
  outputs := [.control "exec"]
  sideEffects := true
  run a :=
    let value := (a.inputs.value? "value" a.node).getD default
    { a.finish (some (.fire "exec")) with
      world := a.world.setVariable (variableName a.node "varName") value }

def addToVariable : Definition σ where
  kind := "AddVar"
  category := .logic
  label := "Add to Variable"
  inputs :=
    [.control "exec", { id := "value", type := .number, fallback := some (.number (.plain 1)) }]
  outputs := [.control "exec", { id := "result", type := .number }]
  sideEffects := true
  run a :=
    let name := variableName a.node "varName"
    let amount := a.inputs.numberOr "value" a.node 1
    let current := ((a.world.value? name).bind Value.asNumber?).getD 0
    let result := Value.number (.plain (current + amount))
    { a.finish (some ((Outputs.fire "exec").set "result" result)) with
      world := a.world.setVariable name result }

def getVariable : Definition σ where
  kind := "GetVariable"
  category := .logic
  label := "Get Variable"
  description := "Reads a variable; absent variables read as 0"
  inputs := [.control "exec"]
  outputs := [.control "exec", { id := "value", type := .any }]
  run a :=
    let value := (a.world.value? (variableName a.node "variable")).getD default
    a.finish (some ((Outputs.fire "exec").set "value" value))

end GraphScript.Kind

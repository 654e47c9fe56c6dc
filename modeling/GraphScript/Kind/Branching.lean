import GraphScript.Comparison
import GraphScript.Definition

/-!
# Kind.Branching — nodes that compare and decide

- `branch` sends control flow one of two ways, `compare` compares two values.
-/

namespace GraphScript.Kind

variable {σ : Type}

/-- Fires `true` or `false`, as its condition says. -/
def branch : Definition σ where
  kind := "If"
  category := .logic
  description := "Branches on a condition"
  inputs := [.control "exec", { id := "condition", type := .boolean }]
  outputs := [.control "true", .control "false"]
  run a :=
    a.finish (some (.fire (if a.inputs.boolOr "condition" a.node false then "true" else "false")))

/-- An operand of a comparison: what arrived, or else the property, or else zero. -/
def operand (a : Activation σ) (port : PortId) : Value := (a.inputs.value? port a.node).getD default

/-- Compares its operands by the operator of the node, and by three fixed ones. -/
def compare : Definition σ where
  kind := "Compare"
  category := .logic
  inputs := [{ id := "a", type := .any }, { id := "b", type := .any }]
  outputs :=
    [{ id := "result", type := .boolean }, { id := "equal", type := .boolean, name := "==" },
     { id := "greater", type := .boolean, name := ">" },
     { id := "less", type := .boolean, name := "<" }]
  run a :=
    let x := operand a "a"
    let y := operand a "b"
    let operator := (a.node.text? "operator").getD "=="
    let (result, notes) :=
      match Comparison.parse? operator with
      | some op => (op.holds x y, [])
      | none => (false, [Note.operatorUnknown a.node.id operator])
    let outputs : Outputs := {}
    a.finish (some (outputs
      |>.set "result" (.bool result)
      |>.set "equal" (.bool (Comparison.equal.holds x y))
      |>.set "greater" (.bool (Comparison.greater.holds x y))
      |>.set "less" (.bool (Comparison.less.holds x y)))) notes

end GraphScript.Kind

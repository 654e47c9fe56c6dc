import GraphScript.Value

/-!
# Comparison — the operators of a comparing node

- `Comparison.parse?` reads an operator, with blanks around it.
- `Comparison.holds` applies it through the loose order and equality of values.
-/

namespace GraphScript

inductive Comparison where
  | equal
  | notEqual
  | greater
  | less
  | greaterOrEqual
  | lessOrEqual
  deriving DecidableEq, Repr

namespace Comparison

def parse? (text : String) : Option Comparison :=
  match trim text with
  | "==" => some equal
  | "!=" => some notEqual
  | ">" => some greater
  | "<" => some less
  | ">=" => some greaterOrEqual
  | "<=" => some lessOrEqual
  | _ => none

def holds (op : Comparison) (a b : Value) : Bool :=
  match op with
  | equal => a.looseEq b
  | notEqual => !a.looseEq b
  | greater => a.looseCompare b = some .gt
  | less => a.looseCompare b = some .lt
  | greaterOrEqual => a.looseCompare b = some .gt || a.looseCompare b = some .eq
  | lessOrEqual => a.looseCompare b = some .lt || a.looseCompare b = some .eq

end Comparison

end GraphScript

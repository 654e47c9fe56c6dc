import GraphScript.Definition

/-!
# UsableInputs — which of input and property a node goes by

A node that wants a value of some type looks at its input, then at the property of that name, then takes a
default.  Values of other types may stand in both places.

- `firstView` — the first of several values that can be read as wanted;
- `Inputs.lookups` — texts and entities are found this way, whatever else stands before them; numbers are,
  unless what arrived is no number and hides the property, which leaves the default;
- `Inputs.hidden_number` — a text that arrives hides a number.
-/

namespace GraphScript

/-- The view of the first value that has one; places may be empty. -/
def firstView {α : Type} (view : Value → Option α) (places : List (Option Value)) : Option α :=
  places.findSome? (·.bind view)

theorem firstView_pair {α : Type} {view : Value → Option α} (first second : Option Value) :
    firstView view [first, second] = (first.bind view).or (second.bind view) := by
  rw [firstView, List.findSome?_cons]
  cases first.bind view with
  | some x => rfl
  | none => cases h : second.bind view <;> simp [h]

namespace Inputs

variable {i : Inputs} {port : PortId} {node : Node} {x fallback : Float}

/-- What arrived at the port is no number, and the property of that name is the number `x`. -/
structure Hides (i : Inputs) (port : PortId) (node : Node) (x : Float) : Prop where
  arrived : ∃ v, i.get? port = some v ∧ v.asNumber? = none
  property : node.number? port = some x

/-! ## Numbers -/

theorem Hides.firstView_eq (h : i.Hides port node x) :
    firstView Value.asNumber? [i.get? port, node.property? port] = some x := by
  obtain ⟨v, hv, hnone⟩ := h.arrived
  rw [firstView_pair, hv, Option.bind_some, hnone, Option.none_or]
  exact h.property

/-- A hidden number is not found, and the default is taken. -/
theorem Hides.numberOr_eq (h : i.Hides port node x) : i.numberOr port node fallback = fallback := by
  obtain ⟨v, hv, hnone⟩ := h.arrived
  rw [numberOr, value?, hv, Option.some_or, Option.bind_some, hnone, Option.getD_none]

/-- Wherever no number is hidden, the first usable one is found. -/
theorem numberOr_of_not_hides (h : ¬ ∃ x, i.Hides port node x) :
    i.numberOr port node fallback =
      (firstView Value.asNumber? [i.get? port, node.property? port]).getD fallback := by
  rw [numberOr, value?, firstView_pair]
  congr 1
  cases hv : i.get? port with
  | none => rfl
  | some v =>
    cases hnumber : v.asNumber? with
    | some y => simp [hnumber]
    | none =>
      -- Nothing is hidden, so the property is no number either.
      have hproperty : node.number? port = none := by
        rw [Option.eq_none_iff_forall_ne_some]
        intro y hy
        exact h ⟨y, ⟨v, hv, hnumber⟩, hy⟩
      rw [Option.some_or, Option.bind_some, hnumber, Option.none_or]
      exact hproperty.symm

/-! ## Numbers, texts and entities -/

/-- A text or an entity is the first usable one of input and property.  So is a number, unless it is hidden
by an input that is none. -/
theorem lookups (i : Inputs) (port : PortId) (node : Node) (number : Float) (text : String)
    (property : String) :
    (∀ x, i.Hides port node x → i.numberOr port node number = number ∧
      firstView Value.asNumber? [i.get? port, node.property? port] = some x) ∧
    ((¬ ∃ x, i.Hides port node x) → i.numberOr port node number =
      (firstView Value.asNumber? [i.get? port, node.property? port]).getD number) ∧
    i.textOr port node text =
      (firstView Value.asFilledText? [i.get? port, node.property? port]).getD text ∧
    i.entity? port node property =
      firstView Value.asEntity? [i.get? port, node.property? property] := by
  refine ⟨fun x h => ⟨h.numberOr_eq, h.firstView_eq⟩, numberOr_of_not_hides, ?text, ?entity⟩
  case text =>
    rw [textOr, firstView_pair]
    rfl
  case entity => rw [entity?, firstView_pair]

/-- A text arrives where the property is a number, and the node goes by the default. -/
theorem hidden_number :
    let i : Inputs := ({} : Inputs).insert "x" (.text "fast")
    let node := (Node.ofKind "n" "Spawn").withProperty "x" (.number (.plain 100))
    firstView Value.asNumber? [i.get? "x", node.property? "x"] = some 100 ∧
      i.numberOr "x" node 0 = 0 ∧ (0 : Float) ≠ 100 := by
  refine ⟨?_, ?_, ?_⟩
  · rfl
  · rfl
  · decide

end Inputs

end GraphScript

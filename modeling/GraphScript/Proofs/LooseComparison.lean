import GraphScript.Kind.Branching
import GraphScript.Proofs.NumberOrder

/-!
# LooseComparison — how equality and order of values fit together

Equality and order look at values in two ways.  Texts are equal or ordered by what they spell, and so are
equal the ids of entities; where this does not apply, numbers decide.

- `Value.looseEq_comm`, `Value.looseCompare_swap` — both do not care which value stands first;
- `Value.looseCompare_eq_iff` — values that are equal are equal in the order too, but for entities, which
  have no order;
- `Comparison.orEqual_iff` — so an operator with "or equal" is what its name says wherever there is an
  order; `Comparison.entities_unordered` shows an entity that is equal to itself and not less or equal;
- `Kind.comparisons_opposed` — the six operators on exchanged operands, and what a comparing node says.
-/

namespace GraphScript

namespace Value

variable {a b : Value}

/-! ## Values as numbers -/

/-- The order of two values as numbers; none where one of them has no number. -/
def numberOrder (a b : Value) : Option Ordering := do
  let x ← a.asNumber?
  let y ← b.asNumber?
  compareNumbers x y

/-- Numbers are compared alike from both sides. -/
theorem numberOrder_swap (a b : Value) : b.numberOrder a = (a.numberOrder b).map Ordering.swap := by
  unfold numberOrder
  cases a.asNumber? with
  | none => cases b.asNumber? <;> rfl
  | some x =>
    cases b.asNumber? with
    | none => rfl
    | some y => exact compareNumbers_swap x y

theorem asNumber?_of_entity (h : a.portType = .entity) : a.asNumber? = none := by
  cases a with
  | entity id => rfl
  | _ => cases h

/-- Entities denote no numbers, so nothing is before or behind them. -/
theorem numberOrder_of_entity (h : a.portType = .entity ∨ b.portType = .entity) :
    a.numberOrder b = none := by
  unfold numberOrder
  rcases h with h | h <;> rw [asNumber?_of_entity h]
  · rfl
  · cases a.asNumber? <;> rfl

/-! ## Texts, or else numbers -/

/-- Where both values can be read as texts, these decide. -/
theorem looseEq_of_texts {s t : String} (ha : a.asText? = some s) (hb : b.asText? = some t) :
    a.looseEq b = true ↔ s = t := by
  simp [looseEq, ha, hb]

/-- Everywhere else numbers decide. -/
theorem looseEq_of_numbers (h : a.asText? = none ∨ b.asText? = none) :
    a.looseEq b = true ↔ a.numberOrder b = some .eq := by
  unfold looseEq numberOrder
  split
  · -- Texts on both sides are excluded.
    rename_i ha hb
    rcases h with h | h
    · cases ha.symm.trans h
    · cases hb.symm.trans h
  · cases a.asNumber? with
    | none => simp
    | some x =>
      cases b.asNumber? with
      | none => simp
      | some y => exact compareNumbers_eq_iff.symm

/-- Only two texts are ordered as texts: the ids of entities are not. -/
theorem looseCompare_of_numbers (h : a.portType ≠ .string ∨ b.portType ≠ .string) :
    a.looseCompare b = a.numberOrder b := by
  unfold looseCompare
  split
  · rcases h with h | h <;> exact absurd rfl h
  · rfl

theorem texts_or_numbers (a b : Value) :
    (∃ s t, a = text s ∧ b = text t) ∨ a.portType ≠ .string ∨ b.portType ≠ .string := by
  cases a with
  | text s =>
    cases b with
    | text t => exact .inl ⟨s, t, rfl, rfl⟩
    | _ => exact .inr (.inr nofun)
  | _ => exact .inr (.inl nofun)

/-! ## Exchanged operands -/

/-- It does not matter from which side two values are compared. -/
theorem looseEq_comm (a b : Value) : a.looseEq b = b.looseEq a := by
  rw [Bool.eq_iff_iff]
  by_cases h : a.asText? = none ∨ b.asText? = none
  · rw [looseEq_of_numbers h, looseEq_of_numbers h.symm, numberOrder_swap a b]
    simp
  · obtain ⟨⟨s, hs⟩, t, ht⟩ : (∃ s, a.asText? = some s) ∧ ∃ t, b.asText? = some t := by
      simpa [not_or, Option.ne_none_iff_exists'] using h
    rw [looseEq_of_texts hs ht, looseEq_of_texts ht hs, eq_comm]

theorem looseCompare_swap (a b : Value) :
    b.looseCompare a = (a.looseCompare b).map Ordering.swap := by
  rcases texts_or_numbers a b with ⟨s, t, rfl, rfl⟩ | h
  · exact congrArg some Std.OrientedOrd.eq_swap
  · rw [looseCompare_of_numbers h, looseCompare_of_numbers h.symm, numberOrder_swap]

/-! ## Equal in the order -/

theorem asText?_eq_none_iff : a.asText? = none ↔ a.portType ≠ .string ∧ a.portType ≠ .entity := by
  cases a <;> simp [asText?, portType]

/-- An entity is before nothing and behind nothing, itself included. -/
theorem looseCompare_of_entity (h : a.portType = .entity ∨ b.portType = .entity) :
    a.looseCompare b = none := by
  rw [looseCompare_of_numbers (h.imp (by simp +contextual) (by simp +contextual)),
    numberOrder_of_entity h]

/-- Values are equal in the order if they are equal and are no entities. -/
theorem looseCompare_eq_iff (a b : Value) : a.looseCompare b = some .eq ↔
    a.looseEq b = true ∧ a.portType ≠ .entity ∧ b.portType ≠ .entity := by
  by_cases hentity : a.portType = .entity ∨ b.portType = .entity
  · rw [looseCompare_of_entity hentity]
    rcases hentity with h | h <;> simp [h]
  rw [not_or] at hentity
  rw [and_iff_left hentity]
  rcases texts_or_numbers a b with ⟨s, t, rfl, rfl⟩ | hnumbers
  · rw [looseEq_of_texts rfl rfl, ← Std.LawfulEqOrd.compare_eq_iff_eq (α := String)]
    exact Option.some_inj
  · -- One of the two is neither text nor entity, so equality looks at numbers as well.
    have htexts : a.asText? = none ∨ b.asText? = none :=
      hnumbers.imp (fun h => asText?_eq_none_iff.2 ⟨h, hentity.1⟩)
        (fun h => asText?_eq_none_iff.2 ⟨h, hentity.2⟩)
    rw [looseCompare_of_numbers hnumbers, looseEq_of_numbers htexts]

/-- Values that are equal are neither less nor greater. -/
theorem looseCompare_of_looseEq (h : a.looseEq b = true) :
    a.looseCompare b = none ∨ a.looseCompare b = some .eq := by
  by_cases hentity : a.portType = .entity ∨ b.portType = .entity
  · exact .inl (looseCompare_of_entity hentity)
  · exact .inr ((looseCompare_eq_iff a b).2 ⟨h, not_or.1 hentity⟩)

end Value

/-! ## Operators -/

namespace Comparison

/-- Equality adds to an order where there is one.  Entities are equal or not, but have no order. -/
theorem orEqual_iff (a b : Value) :
    (lessOrEqual.holds a b = true ↔ less.holds a b = true ∨
      equal.holds a b = true ∧ a.portType ≠ .entity ∧ b.portType ≠ .entity) ∧
    (greaterOrEqual.holds a b = true ↔ greater.holds a b = true ∨
      equal.holds a b = true ∧ a.portType ≠ .entity ∧ b.portType ≠ .entity) ∧
    (notEqual.holds a b = true ↔ ¬ equal.holds a b = true) ∧
    (a.portType = .entity ∨ b.portType = .entity →
      less.holds a b = false ∧ greater.holds a b = false) := by
  refine ⟨?less, ?greater, ?notEqual, ?entity⟩
  case less => simp only [holds, Bool.or_eq_true, decide_eq_true_eq, Value.looseCompare_eq_iff]
  case greater => simp only [holds, Bool.or_eq_true, decide_eq_true_eq, Value.looseCompare_eq_iff]
  case notEqual => simp only [holds, Bool.not_eq_true', Bool.not_eq_true]
  case entity =>
    intro hentity
    simp [holds, Value.looseCompare_of_entity hentity]

/-- An entity equals itself, and is neither less or equal nor greater or equal. -/
theorem entities_unordered :
    let player := Value.entity "player"
    ¬ (lessOrEqual.holds player player = true ↔
        less.holds player player = true ∨ equal.holds player player = true) ∧
      ¬ (greaterOrEqual.holds player player = true ↔
        greater.holds player player = true ∨ equal.holds player player = true) := by
  decide

/-- Of equal, greater and less at most one holds. -/
theorem countP_holds_le_one (a b : Value) : [equal, greater, less].countP (·.holds a b) ≤ 1 := by
  cases heq : a.looseEq b with
  | true =>
    rcases Value.looseCompare_of_looseEq heq with h | h <;> simp [holds, heq, h]
  | false =>
    rcases hcompare : a.looseCompare b with _ | _ | _ | _ <;> simp [holds, heq, hcompare]

end Comparison

/-! ## The comparing node -/

namespace Kind

variable {σ : Type}

/-- A comparison always leaves its three fixed outputs, and whatever its operator says besides. -/
theorem outputs_compare (act : Activation σ) :
    ∃ outputs, (compare.run act).outputs = some outputs ∧
      outputs.get? "equal" =
        some (.bool (Comparison.equal.holds (operand act "a") (operand act "b"))) ∧
      outputs.get? "greater" =
        some (.bool (Comparison.greater.holds (operand act "a") (operand act "b"))) ∧
      outputs.get? "less" =
        some (.bool (Comparison.less.holds (operand act "a") (operand act "b"))) := by
  simp only [compare]
  cases Comparison.parse? ((act.node.text? "operator").getD "==") <;> exact ⟨_, rfl, rfl, rfl, rfl⟩

/-- Exchanged operands turn the order round and leave equality as it is, and a comparing node never says two
of equal, greater and less. -/
theorem comparisons_opposed (a b : Value) (act : Activation σ) :
    a.looseEq b = b.looseEq a ∧
    b.looseCompare a = (a.looseCompare b).map Ordering.swap ∧
    Comparison.greater.holds a b = Comparison.less.holds b a ∧
    Comparison.greaterOrEqual.holds a b = Comparison.lessOrEqual.holds b a ∧
    (a.looseCompare b = some .eq → a.looseEq b = true) ∧
    ∃ outputs, (compare.run act).outputs = some outputs ∧
      ["equal", "greater", "less"].countP (fun port => outputs.get? port = some (.bool true)) ≤ 1 := by
  have hswap := Value.looseCompare_swap a b
  refine ⟨Value.looseEq_comm a b, hswap, ?greater, ?greaterOrEqual,
    fun h => ((Value.looseCompare_eq_iff a b).1 h).1, ?node⟩
  case greater =>
    simp only [Comparison.holds, hswap]
    rcases a.looseCompare b with _ | _ | _ | _ <;> rfl
  case greaterOrEqual =>
    simp only [Comparison.holds, hswap]
    rcases a.looseCompare b with _ | _ | _ | _ <;> rfl
  case node =>
    obtain ⟨outputs, houtputs, hequal, hgreater, hless⟩ := outputs_compare act
    refine ⟨outputs, houtputs, ?_⟩
    have hone := Comparison.countP_holds_le_one (operand act "a") (operand act "b")
    simpa [List.countP_cons, hequal, hgreater, hless] using hone

end Kind

end GraphScript

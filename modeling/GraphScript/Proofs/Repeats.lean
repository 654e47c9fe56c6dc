/-!
# Repeats — lists without what came before

`List.eraseDupsBy` keeps an item unless an item that was kept before it makes it a repeat.

- `repeats_induction`: induction along the removal of repeats.
- `eraseDupsBy_sublist`, `eraseDupsBy_eraseDupsBy`: repeats are left out in place, and once is enough.
- `map_eraseDupsBy`, `eraseDupsBy_filter`: leaving out repeats commutes with maps that keep what makes a
  repeat, and with picking items where repeats are picked alike.
-/

namespace GraphScript

variable {α β : Type} {r : α → α → Bool}

/-- What holds of a list if it holds of its tail without the repeats of its head holds of every list. -/
theorem repeats_induction {P : List α → Prop} (nil : P [])
    (cons : ∀ a l, P (l.filter fun b => r b a = false) → P (a :: l)) (l : List α) : P l := by
  induction hlength : l.length using Nat.strongRecOn generalizing l with
  | ind length ih =>
    cases l with
    | nil => exact nil
    | cons a l =>
      refine cons a l (ih _ ?_ _ rfl)
      rw [← hlength, List.length_cons, Nat.lt_succ_iff]
      exact List.length_filter_le _ _

theorem eraseDupsBy_sublist (l : List α) : (l.eraseDupsBy r).Sublist l := by
  induction l using repeats_induction (r := r) with
  | nil => exact List.Sublist.slnil
  | cons a l ih =>
    rw [List.eraseDupsBy_cons]
    exact (ih.trans List.filter_sublist).cons_cons a

/-- Leaving out repeats a second time changes nothing. -/
theorem eraseDupsBy_eraseDupsBy (l : List α) : (l.eraseDupsBy r).eraseDupsBy r = l.eraseDupsBy r := by
  induction l using repeats_induction (r := r) with
  | nil => rfl
  | cons a l ih =>
    -- What is left behind the first item does not repeat it.
    have hrest : ∀ b ∈ (l.filter fun b => r b a = false).eraseDupsBy r, decide (r b a = false) = true :=
      fun b hb => (List.mem_filter.1 ((eraseDupsBy_sublist _).subset hb)).2
    rw [List.eraseDupsBy_cons, List.eraseDupsBy_cons, List.filter_eq_self.2 hrest, ih]

/-- Leaving out repeats commutes with a map that keeps what makes a repeat. -/
theorem map_eraseDupsBy {r' : β → β → Bool} {f : α → β} (hr : ∀ a b, r' (f a) (f b) = r a b)
    (l : List α) : (l.eraseDupsBy r).map f = (l.map f).eraseDupsBy r' := by
  induction l using repeats_induction (r := r) with
  | nil => rfl
  | cons a l ih =>
    have hrepeats : ((fun b => decide (r' b (f a) = false)) ∘ f) = fun b => decide (r b a = false) := by
      funext b
      simp only [Function.comp_apply, hr]
    calc ((a :: l).eraseDupsBy r).map f
        = f a :: ((l.filter fun b => r b a = false).eraseDupsBy r).map f := by
          rw [List.eraseDupsBy_cons, List.map_cons]
      _ = f a :: ((l.filter fun b => r b a = false).map f).eraseDupsBy r' := by rw [ih]
      _ = ((a :: l).map f).eraseDupsBy r' := by
          rw [List.map_cons, List.eraseDupsBy_cons, List.filter_map, hrepeats]

/-- Leaving out repeats and picking items commute, if repeats are picked alike. -/
theorem eraseDupsBy_filter {P : α → Bool} (hr : ∀ a b, r b a = true → P a = P b) (l : List α) :
    (l.filter P).eraseDupsBy r = (l.eraseDupsBy r).filter P := by
  induction l using repeats_induction (r := r) with
  | nil => rfl
  | cons a l ih =>
    -- The repeats of the first item are gone before the rest is looked at.
    cases hpick : P a with
    | true =>
      rw [List.eraseDupsBy_cons, List.filter_cons_of_pos hpick, List.filter_cons_of_pos hpick,
        List.eraseDupsBy_cons, ← ih, List.filter_filter, List.filter_filter]
      simp only [Bool.and_comm]
    | false =>
      have hsame : (l.filter fun b => r b a = false).filter P = l.filter P := by
        rw [List.filter_filter]
        refine List.filter_congr ?_
        intro b _
        cases hrepeat : r b a with
        | true => rw [← hr a b hrepeat, hpick]; rfl
        | false => simp
      rw [List.eraseDupsBy_cons, List.filter_cons_of_neg (by simp [hpick]),
        List.filter_cons_of_neg (by simp [hpick]), ← ih, hsame]

end GraphScript

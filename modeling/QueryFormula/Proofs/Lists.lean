import Mathlib.Data.List.Forall2

/-!
# Lists that are related member by member

The operands of a clause, the cases of a conditional and their rebuilt forms are compared place
by place.
-/

namespace QueryFormula

/-- Replacing every member of a list by itself. -/
theorem map_eq_self {α : Type} {f : α → α} {xs : List α} (h : ∀ x ∈ xs, f x = x) :
    xs.map f = xs := by
  rw [List.map_congr_left (fun x hx => (h x hx).trans (id_eq x).symm)]
  exact List.map_id xs

/-- What stands at a place of one list stands in relation to what stands there in the other. -/
theorem exists_getElem?_of_forall₂ {α β : Type} {R : α → β → Prop} {xs : List α} {ys : List β}
    (h : List.Forall₂ R xs ys) {i : Nat} {x : α} (hx : xs[i]? = some x) :
    ∃ y, ys[i]? = some y ∧ R x y := by
  induction h generalizing i with
  | nil => cases hx
  | @cons a b as bs hfirst _ ih =>
      cases i with
      | zero =>
          cases hx
          exact ⟨b, rfl, hfirst⟩
      | succ i => exact ih hx

theorem exists_mem_of_forall₂ {α β : Type} {R : α → β → Prop} {xs : List α} {ys : List β}
    (h : List.Forall₂ R xs ys) {x : α} (hx : x ∈ xs) : ∃ y ∈ ys, R x y := by
  obtain ⟨i, hi⟩ := List.getElem?_of_mem hx
  obtain ⟨y, hy, hrelated⟩ := exists_getElem?_of_forall₂ h hi
  exact ⟨y, List.mem_of_getElem? hy, hrelated⟩

/-- Positions are compared one by one. -/
theorem forall₂_of_map_eq {α β γ : Type} {f : α → γ} {g : β → γ} {R : α → β → Prop}
    {xs : List α} {ys : List β} (h : xs.map f = ys.map g)
    (hR : ∀ x ∈ xs, ∀ y ∈ ys, f x = g y → R x y) : List.Forall₂ R xs ys := by
  induction xs generalizing ys with
  | nil =>
      cases ys with
      | nil => exact .nil
      | cons y ys => cases h
  | cons x xs ih =>
      cases ys with
      | nil => cases h
      | cons y ys =>
          obtain ⟨hx, hxs⟩ := List.cons_eq_cons.mp h
          have hfirst : R x y := hR x List.mem_cons_self y List.mem_cons_self hx
          refine .cons hfirst (ih hxs fun z hz w hw => ?_)
          exact hR z (List.mem_cons_of_mem _ hz) w (List.mem_cons_of_mem _ hw)

end QueryFormula

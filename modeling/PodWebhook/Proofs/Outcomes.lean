import Mathlib.Data.List.Forall2
import Mathlib.Data.List.Perm.Basic

/-!
Outcomes that may have no value. A function that may fail, mapped over a list, has a value when it
has one for each element, and the values are in the order of the list.
-/

namespace PodWebhook

variable {α β γ : Type}

theorem toOption_eq_some_iff {ε : Type} {result : Except ε α} {a : α} :
    result.toOption = some a ↔ result = .ok a := by
  cases result <;> simp [Except.toOption]

theorem toOption_map {ε : Type} (make : α → β) (result : Except ε α) :
    (result.map make).toOption = result.toOption.map make := by
  cases result <;> rfl

theorem bind_eq_ok_iff {ε : Type} {result : Except ε α} {f : α → Except ε β} {b : β} :
    (result >>= f) = .ok b ↔ ∃ a, result = .ok a ∧ f a = .ok b := by
  cases result <;> simp [bind, Except.bind]

theorem mapM_eq_some_iff {f : α → Option β} {xs : List α} {ys : List β} :
    xs.mapM f = some ys ↔ List.Forall₂ (fun x y => f x = some y) xs ys := by
  induction xs generalizing ys with
  | nil => simp [eq_comm]
  | cons x xs ih =>
      rw [List.mapM_cons, List.forall₂_cons_left_iff]
      constructor
      · intro h
        obtain ⟨y, hy, h⟩ := Option.bind_eq_some_iff.mp h
        obtain ⟨rest, hr, h⟩ := Option.bind_eq_some_iff.mp h
        exact ⟨y, rest, hy, ih.mp hr, (Option.some.inj h).symm⟩
      · rintro ⟨y, rest, hy, hr, rfl⟩
        rw [hy, ih.mpr hr]
        rfl

theorem exists_of_forall₂_right {R : α → β → Prop} {xs : List α} {ys : List β}
    (h : List.Forall₂ R xs ys) {y : β} (hy : y ∈ ys) : ∃ x ∈ xs, R x y := by
  induction h with
  | nil => simp at hy
  | @cons x z xs ys head tail ih =>
      rcases List.mem_cons.mp hy with rfl | hmem
      · exact ⟨x, List.mem_cons_self, head⟩
      · obtain ⟨w, hw, related⟩ := ih hmem
        exact ⟨w, List.mem_cons_of_mem x hw, related⟩

theorem exists_of_forall₂_left {R : α → β → Prop} {xs : List α} {ys : List β}
    (h : List.Forall₂ R xs ys) {x : α} (hx : x ∈ xs) : ∃ y ∈ ys, R x y :=
  exists_of_forall₂_right (List.Forall₂.flip h) hx

theorem mapM_congr_forall₂ {R : α → γ → Prop} {f : α → Option β} {g : γ → Option β}
    {xs : List α} {ys : List γ} (h : List.Forall₂ R xs ys)
    (same : ∀ x ∈ xs, ∀ y, R x y → f x = g y) : xs.mapM f = ys.mapM g := by
  induction h with
  | nil => rfl
  | @cons x y xs ys head _ ih =>
      have rest := ih fun z hz => same z (List.mem_cons_of_mem x hz)
      rw [List.mapM_cons, List.mapM_cons, same x List.mem_cons_self y head, rest]

theorem exists_mapM_of_perm {f : α → Option β} {xs ys : List α} {bs : List β} (order : xs.Perm ys)
    (h : ys.mapM f = some bs) : ∃ as, xs.mapM f = some as ∧ as.Perm bs := by
  have each := mapM_eq_some_iff.mp h
  obtain ⟨as, mapped, same⟩ := List.perm_comp_forall₂ order each
  exact ⟨as, mapM_eq_some_iff.mpr mapped, same⟩

/-- What is made of the results does not depend on the order of the list, if it does not depend on
theirs. -/
theorem map_mapM_perm {f : α → Option β} {make : List β → γ} {xs ys : List α}
    (order : xs.Perm ys)
    (same : ∀ as bs, xs.mapM f = some as → as.Perm bs → make as = make bs) :
    (xs.mapM f).map make = (ys.mapM f).map make := by
  cases mapped : xs.mapM f with
  | some as =>
      obtain ⟨bs, others, back⟩ := exists_mapM_of_perm order.symm mapped
      rw [others, Option.map_some, Option.map_some, same as bs mapped back.symm]
  | none =>
      cases others : ys.mapM f with
      | none => rfl
      | some bs =>
          obtain ⟨as, found, -⟩ := exists_mapM_of_perm order others
          rw [mapped] at found
          cases found

theorem forall₂_and {R S : α → β → Prop} {xs : List α} {ys : List β} (h : List.Forall₂ R xs ys)
    (g : List.Forall₂ S xs ys) : List.Forall₂ (fun x y => R x y ∧ S x y) xs ys := by
  induction h with
  | nil => exact .nil
  | cons head _ ih =>
      cases g with
      | cons first rest => exact .cons ⟨head, first⟩ (ih rest)

end PodWebhook

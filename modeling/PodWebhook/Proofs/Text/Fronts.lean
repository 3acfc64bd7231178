import Mathlib.Data.List.TakeWhile

/-!
The front of a text: what is read while a test holds, and the rest, on which the test fails at once.
-/

namespace PodWebhook.Text

variable {α : Type}

theorem exists_front (p : α → Bool) (text : List α) :
    ∃ front rest, text = front ++ rest ∧ (∀ c ∈ front, p c = true) ∧
      ∀ c, rest.head? = some c → p c = false := by
  refine ⟨_, _, (List.takeWhile_append_dropWhile (p := p)).symm, fun c => List.mem_takeWhile_imp,
    fun c first => ?_⟩
  have head := List.head?_dropWhile_not p text
  rwa [first] at head

theorem takeWhile_front {p : α → Bool} {front rest : List α} (holds : ∀ c ∈ front, p c = true)
    (fails : ∀ c, rest.head? = some c → p c = false) : (front ++ rest).takeWhile p = front := by
  rw [List.takeWhile_append_of_pos holds]
  cases rest with
  | nil => simp
  | cons c rest => simp [fails c rfl]

theorem exists_cut [DecidableEq α] (mark : α) (text : List α) :
    ∃ front behind, mark ∉ front ∧ text = front ++ Option.elim behind [] (mark :: ·) := by
  by_cases member : mark ∈ text
  · obtain ⟨front, behind, whole, fresh⟩ := List.eq_append_cons_of_mem member
    exact ⟨front, some behind, fresh, whole⟩
  · exact ⟨text, none, member, (List.append_nil text).symm⟩

theorem takeWhile_cut [DecidableEq α] {mark : α} {front : List α} (fresh : mark ∉ front)
    (behind : Option (List α)) :
    (front ++ behind.elim [] (mark :: ·)).takeWhile (· != mark) = front := by
  refine takeWhile_front (fun c member => bne_iff_ne.mpr fun same => fresh (same ▸ member)) ?_
  cases behind with
  | none => exact fun c first => nomatch first
  | some behind => rintro _ ⟨⟩; exact bne_self_eq_false mark

/-- The ways to cut a text at a mark: at the same place, at one behind, or at one before. -/
theorem append_cons_eq_append_cons_iff {mark : α} {front other behind rest : List α} :
    front ++ mark :: behind = other ++ mark :: rest ↔
      (front = other ∧ behind = rest) ∨
        (∃ cut, other = front ++ mark :: cut ∧ behind = cut ++ mark :: rest) ∨
          ∃ cut, front = other ++ mark :: cut ∧ rest = cut ++ mark :: behind := by
  constructor
  · intro same
    rcases List.append_eq_append_iff.mp same with ⟨cut, rfl, cutBehind⟩ | ⟨cut, rfl, cutRest⟩
    · cases cut with
      | nil => exact .inl ⟨(List.append_nil front).symm, (List.cons.inj cutBehind).2⟩
      | cons c cut =>
          obtain ⟨rfl, rfl⟩ := List.cons.inj cutBehind
          exact .inr (.inl ⟨cut, rfl, rfl⟩)
    · cases cut with
      | nil => exact .inl ⟨List.append_nil other, (List.cons.inj cutRest).2.symm⟩
      | cons c cut =>
          obtain ⟨rfl, rfl⟩ := List.cons.inj cutRest
          exact .inr (.inr ⟨cut, rfl, rfl⟩)
  · rintro (⟨rfl, rfl⟩ | ⟨cut, rfl, rfl⟩ | ⟨cut, rfl, rfl⟩) <;> simp

theorem append_cons_inj_of_first {mark : α} {front other behind rest : List α}
    (fresh : mark ∉ front) (absent : mark ∉ other) :
    front ++ mark :: behind = other ++ mark :: rest ↔ front = other ∧ behind = rest := by
  rw [append_cons_eq_append_cons_iff, or_iff_left]
  rintro (⟨cut, rfl, -⟩ | ⟨cut, rfl, -⟩)
  · exact absent List.mem_append_cons_self
  · exact fresh List.mem_append_cons_self

end PodWebhook.Text

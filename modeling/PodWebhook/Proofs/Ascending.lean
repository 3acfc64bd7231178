import Mathlib.Data.String.Basic
import PodWebhook.Keyed

/-!
Pairs whose keys ascend. Such a list is known by what it holds under each key (`ext_get?`), so that
equations between lists that are built with `set` and `erase` come down to equations between
look-ups.
-/

namespace PodWebhook.Keyed

variable {α β : Type} {key : String} {value : α} {pairs : Keyed α}

/-- The keys ascend, so that none comes twice. -/
def Ascending (pairs : Keyed α) : Prop :=
  pairs.Pairwise fun a b => a.1 < b.1

theorem Ascending.nodup (h : Ascending pairs) : (pairs.map (·.1)).Nodup :=
  List.pairwise_map.mpr (h.imp fun lt => lt.ne)

theorem get?_eq_none_of_forall (h : ∀ p ∈ pairs, p.1 ≠ key) : get? key pairs = none := by
  induction pairs with
  | nil => rfl
  | cons p ps ih =>
      have head := h p List.mem_cons_self
      rw [get?, if_neg head]
      exact ih fun q hq => h q (List.mem_cons_of_mem p hq)

theorem mem_of_get? (h : get? key pairs = some value) : (key, value) ∈ pairs := by
  induction pairs with
  | nil => simp [get?] at h
  | cons p ps ih =>
      rw [get?] at h
      split at h
      · next hp =>
        cases h
        exact hp ▸ List.mem_cons_self
      · exact List.mem_cons_of_mem p (ih h)

theorem isSome_get?_iff : (get? key pairs).isSome ↔ key ∈ pairs.map (·.1) := by
  induction pairs with
  | nil => simp [get?]
  | cons p ps ih =>
      rw [get?, List.map_cons, List.mem_cons, ← ih]
      by_cases own : p.1 = key
      · simp [own]
      · simp [own, Ne.symm own]

theorem get?_append (key : String) (ps qs : Keyed α) :
    get? key (ps ++ qs) = (get? key ps).or (get? key qs) := by
  induction ps with
  | nil => rfl
  | cons p ps ih =>
      rw [List.cons_append, get?, get?, ih]
      split <;> rfl

theorem get?_of_mem (distinct : (pairs.map (·.1)).Nodup) (h : (key, value) ∈ pairs) :
    get? key pairs = some value := by
  induction pairs with
  | nil => simp at h
  | cons p ps ih =>
      rw [List.map_cons, List.nodup_cons] at distinct
      rcases List.mem_cons.mp h with rfl | hmem
      · simp [get?]
      · have ne : p.1 ≠ key := fun same => distinct.1 (same ▸ List.mem_map_of_mem hmem)
        rw [get?, if_neg ne]
        exact ih distinct.2 hmem

theorem get?_perm {ps qs : List (String × α)} (order : ps.Perm qs)
    (distinct : (ps.map (·.1)).Nodup) (key : String) : get? key ps = get? key qs := by
  have other := (order.map (·.1)).nodup_iff.mp distinct
  refine Option.ext fun value => ⟨fun found => ?_, fun found => ?_⟩
  · exact get?_of_mem other (order.mem_iff.mp (mem_of_get? found))
  · exact get?_of_mem distinct (order.mem_iff.mpr (mem_of_get? found))

theorem ext_get? {ps qs : Keyed α} (hp : Ascending ps) (hq : Ascending qs)
    (h : ∀ key, get? key ps = get? key qs) : ps = qs := by
  have sub : ∀ {xs ys : Keyed α}, Ascending ys → (∀ key, get? key xs = get? key ys) →
      Ascending xs → ∀ p ∈ xs, p ∈ ys := by
    intro xs ys _ hxy hx p hp
    have found : get? p.1 xs = some p.2 := get?_of_mem hx.nodup hp
    exact mem_of_get? ((hxy p.1).symm.trans found)
  have nodup : ∀ {xs : Keyed α}, Ascending xs → xs.Nodup := fun hx =>
    hx.imp fun lt eq => lt.ne (congrArg Prod.fst eq)
  have perm : ps.Perm qs := (List.perm_ext_iff_of_nodup (nodup hp) (nodup hq)).mpr fun p =>
    ⟨sub hq h hp p, sub hp (fun key => (h key).symm) hq p⟩
  refine perm.eq_of_pairwise (fun a b _ _ lt gt => absurd (lt.trans gt) (lt_irrefl _)) hp hq

theorem get?_set (other key : String) (value : α) (pairs : Keyed α) :
    get? other (set key value pairs) = if other = key then some value else get? other pairs := by
  split
  · next h => rw [h, get?_set_self]
  · next h => exact get?_set_of_ne h value pairs

theorem get?_erase (ascending : Ascending pairs) (other : String) :
    get? other (erase key pairs) = if other = key then none else get? other pairs := by
  induction pairs with
  | nil => simp [erase, get?]
  | cons p ps ih =>
      obtain ⟨k, v⟩ := p
      have tail := List.Pairwise.of_cons ascending
      by_cases hk : k = key
      · subst hk
        have gone : get? k ps = none := get?_eq_none_of_forall fun q hq =>
          (List.rel_of_pairwise_cons ascending hq).ne'
        by_cases ho : other = k
        · subst ho
          simp [erase, gone]
        · simp [erase, get?, ho, Ne.symm ho]
      · by_cases ho : other = key
        · subst ho
          simp [erase, hk, get?, ih tail]
        · simp [erase, hk, get?, ih tail, ho]

theorem mem_set {p : String × α} (h : p ∈ set key value pairs) :
    p = (key, value) ∨ p ∈ pairs := by
  induction pairs with
  | nil => simpa [set] using h
  | cons q qs ih =>
      rw [set] at h
      split at h
      · rcases List.mem_cons.mp h with rfl | hmem
        · exact .inl rfl
        · exact .inr (List.mem_cons_of_mem q hmem)
      · split at h
        · exact List.mem_cons.mp h
        · rcases List.mem_cons.mp h with rfl | hmem
          · exact .inr List.mem_cons_self
          · exact (ih hmem).imp_right (List.mem_cons_of_mem q)

theorem mem_of_mem_erase {p : String × α} (h : p ∈ erase key pairs) : p ∈ pairs := by
  induction pairs with
  | nil => simp [erase] at h
  | cons q qs ih =>
      rw [erase] at h
      split at h
      · exact List.mem_cons_of_mem q h
      · rcases List.mem_cons.mp h with rfl | hmem
        · exact List.mem_cons_self
        · exact List.mem_cons_of_mem q (ih hmem)

theorem Ascending.set (key : String) (value : α) (h : Ascending pairs) :
    Ascending (set key value pairs) := by
  induction pairs with
  | nil => simp [Keyed.set, Ascending]
  | cons q qs ih =>
      obtain ⟨k, v⟩ := q
      have tail := List.Pairwise.of_cons h
      have first := fun {p} (hp : p ∈ qs) => List.rel_of_pairwise_cons h hp
      rw [Keyed.set]
      split
      · next hk =>
        subst hk
        exact List.Pairwise.cons (fun p hp => first hp) tail
      · next hk =>
        split
        · next lt =>
          refine List.Pairwise.cons (fun p hp => ?_) h
          rcases List.mem_cons.mp hp with rfl | hmem
          · exact lt
          · exact lt.trans (first hmem)
        · next ge =>
          refine List.Pairwise.cons (fun p hp => ?_) (ih tail)
          rcases mem_set hp with rfl | hmem
          · exact lt_of_le_of_ne (not_lt.mp ge) hk
          · exact first hmem

theorem Ascending.erase (key : String) (h : Ascending pairs) : Ascending (erase key pairs) := by
  induction pairs with
  | nil => exact h
  | cons q qs ih =>
      have tail := List.Pairwise.of_cons h
      rw [Keyed.erase]
      split
      · exact tail
      · refine List.Pairwise.cons (fun p hp => ?_) (ih tail)
        exact List.rel_of_pairwise_cons h (mem_of_mem_erase hp)

theorem set_of_get? (h : Ascending pairs) (hv : get? key pairs = some value) :
    set key value pairs = pairs := by
  apply ext_get? (h.set key value) h
  intro other
  rw [get?_set]
  split
  · next ho => rw [ho, hv]
  · rfl

theorem set_set (h : Ascending pairs) (first second : α) :
    set key second (set key first pairs) = set key second pairs := by
  apply ext_get? ((h.set key first).set key second) (h.set key second)
  intro other
  simp only [get?_set]
  split <;> rfl

theorem erase_set (h : Ascending pairs) : erase key (set key value pairs) = erase key pairs := by
  apply ext_get? ((h.set key value).erase key) (h.erase key)
  intro other
  rw [get?_erase (h.set key value), get?_erase h]
  split
  · rfl
  · next ho => exact get?_set_of_ne ho value pairs

theorem erase_set_of_ne (h : Ascending pairs) {other : String} (ne : other ≠ key) :
    erase other (set key value pairs) = set key value (erase other pairs) := by
  apply ext_get? ((h.set key value).erase other) ((h.erase other).set key value)
  intro k
  rw [get?_erase (h.set key value), get?_set, get?_set, get?_erase h]
  by_cases hk : k = key
  · simp [hk, Ne.symm ne]
  · simp [hk]

def mapValues (change : α → β) (pairs : Keyed α) : Keyed β :=
  pairs.map fun p => (p.1, change p.2)

theorem Ascending.mapValues (change : α → β) (h : Ascending pairs) :
    Ascending (mapValues change pairs) := by
  unfold Ascending Keyed.mapValues at *
  rw [List.pairwise_map]
  exact h

theorem get?_mapValues (change : α → β) (key : String) (pairs : Keyed α) :
    get? key (mapValues change pairs) = (get? key pairs).map change := by
  induction pairs with
  | nil => rfl
  | cons p ps ih =>
      unfold mapValues at ih ⊢
      simp only [List.map_cons, get?]
      split
      · rfl
      · exact ih

theorem mapValues_set (change : α → β) (key : String) (value : α) (pairs : Keyed α) :
    mapValues change (set key value pairs) = set key (change value) (mapValues change pairs) := by
  induction pairs with
  | nil => rfl
  | cons p ps ih =>
      unfold mapValues at ih ⊢
      simp only [List.map_cons, set]
      split
      · rfl
      · split
        · rfl
        · rw [List.map_cons, ih]

theorem keepLast_cons (p : String × α) (ps : Keyed α) :
    keepLast (p :: ps) =
      match keepLast ps with
      | [] => [p]
      | q :: _ => if p.1 = q.1 then keepLast ps else p :: keepLast ps := rfl

theorem mem_of_mem_keepLast {p : String × α} (h : p ∈ keepLast pairs) : p ∈ pairs := by
  induction pairs with
  | nil => exact h
  | cons q qs ih =>
      rw [keepLast_cons] at h
      split at h
      · exact List.mem_cons.mpr (.inl (List.mem_singleton.mp h))
      · split at h
        · exact List.mem_cons_of_mem q (ih h)
        · exact (List.mem_cons.mp h).elim (fun e => e ▸ List.mem_cons_self)
            fun hm => List.mem_cons_of_mem q (ih hm)

theorem ascending_keepLast (h : pairs.Pairwise fun a b => a.1 ≤ b.1) :
    Ascending (keepLast pairs) := by
  induction pairs with
  | nil => exact List.Pairwise.nil
  | cons p ps ih =>
      have tail := ih h.of_cons
      rw [keepLast_cons]
      split
      · exact List.pairwise_singleton _ p
      · next q qs hq =>
        split
        · exact tail
        · next ne =>
          refine List.Pairwise.cons (fun r hr => ?_) tail
          have le : p.1 ≤ q.1 := List.rel_of_pairwise_cons h
            (mem_of_mem_keepLast (hq ▸ List.mem_cons_self))
          rw [hq] at hr tail
          rcases List.mem_cons.mp hr with rfl | hmem
          · exact lt_of_le_of_ne le ne
          · exact lt_of_le_of_lt le (List.rel_of_pairwise_cons tail hmem)

theorem sorted_mergeSort (pairs : List (String × α)) :
    (pairs.mergeSort fun a b => decide (a.1 ≤ b.1)).Pairwise fun a b => a.1 ≤ b.1 := by
  have sorted := @List.pairwise_mergeSort (String × α) (fun a b => decide (a.1 ≤ b.1))
    (fun a b c hab hbc => by simpa using le_trans (by simpa using hab) (by simpa using hbc))
    (fun a b => by simpa using le_total a.1 b.1) pairs
  exact sorted.imp fun h => by simpa using h

theorem ascending_ofList (pairs : List (String × α)) : Ascending (ofList pairs) :=
  ascending_keepLast (sorted_mergeSort pairs)

theorem keepLast_of_ascending (h : Ascending pairs) : keepLast pairs = pairs := by
  induction pairs with
  | nil => rfl
  | cons p ps ih =>
      rw [keepLast_cons, ih h.of_cons]
      cases ps with
      | nil => rfl
      | cons q qs =>
          have lt := List.rel_of_pairwise_cons h List.mem_cons_self
          exact if_neg lt.ne

theorem ofList_of_ascending (h : Ascending pairs) : ofList pairs = pairs := by
  have sorted : pairs.Pairwise fun a b => decide (a.1 ≤ b.1) = true :=
    h.imp fun lt => by simpa using lt.le
  rw [ofList, List.mergeSort_of_pairwise sorted, keepLast_of_ascending h]

theorem mem_of_mem_ofList {p : String × α} (h : p ∈ ofList pairs) : p ∈ pairs :=
  List.mem_mergeSort.mp (mem_of_mem_keepLast h)

theorem perm_ofList (h : (pairs.map (·.1)).Nodup) : (ofList pairs).Perm pairs := by
  have perm := List.mergeSort_perm pairs fun a b => decide (a.1 ≤ b.1)
  have distinct := List.pairwise_map.mp ((perm.map (·.1)).nodup_iff.mpr h)
  have ascending : Ascending (pairs.mergeSort fun a b => decide (a.1 ≤ b.1)) :=
    ((sorted_mergeSort pairs).and distinct).imp fun ⟨le, ne⟩ => lt_of_le_of_ne le ne
  rw [ofList, keepLast_of_ascending ascending]
  exact perm

theorem get?_filter (key : String) (pairs : Keyed α) :
    get? key (pairs.filter fun p => p.1 = key) = get? key pairs := by
  induction pairs with
  | nil => rfl
  | cons p ps ih =>
      by_cases own : p.1 = key
      · simp [own, get?]
      · simp [own, get?, ih]

theorem filter_mergeSort (key : String) (pairs : Keyed α) :
    (pairs.mergeSort fun a b => decide (a.1 ≤ b.1)).filter (fun p => p.1 = key) =
      pairs.filter fun p => p.1 = key := by
  have equal : (pairs.filter fun p => p.1 = key).Pairwise fun a b => decide (a.1 ≤ b.1) = true := by
    refine List.pairwise_of_forall_mem_list fun a ha b hb => ?_
    simp only [List.mem_filter, decide_eq_true_eq] at ha hb
    simp [ha.2, hb.2]
  have kept := (List.sublist_mergeSort
    (fun a b c hab hbc => by simpa using le_trans (by simpa using hab) (by simpa using hbc))
    (fun a b => by simpa using le_total a.1 b.1) equal List.filter_sublist).filter
      fun p => decide (p.1 = key)
  rw [List.filter_filter] at kept
  simp only [Bool.and_self] at kept
  exact (kept.eq_of_length ((List.mergeSort_perm pairs _).filter _).length_eq.symm).symm

theorem get?_keepLast (key : String) (h : pairs.Pairwise fun a b => a.1 ≤ b.1) :
    get? key (keepLast pairs) = get? key pairs.reverse := by
  induction pairs with
  | nil => rfl
  | cons p ps ih =>
      have ascending := ascending_keepLast h
      rw [List.reverse_cons, get?_append, ← ih h.of_cons]
      rw [keepLast_cons] at ascending ⊢
      cases kept : keepLast ps with
      | nil => rfl
      | cons q qs =>
          rw [kept] at ascending
          by_cases same : p.1 = q.1
          · by_cases own : q.1 = key
            · simp [get?, same, own]
            · simp [get?, same, own]
          · simp only [if_neg same] at ascending ⊢
            by_cases own : p.1 = key
            · have none : get? key (q :: qs) = none := get?_eq_none_of_forall fun r hr =>
                own ▸ (List.rel_of_pairwise_cons ascending hr).ne'
              rw [none]
              simp [get?, own]
            · simp [get?, own]

/-- Of the pairs with one key the last counts. -/
theorem get?_ofList_eq (key : String) (pairs : List (String × α)) :
    get? key (ofList pairs) = get? key pairs.reverse := by
  rw [ofList, get?_keepLast key (sorted_mergeSort pairs), ← get?_filter,
    List.filter_reverse, filter_mergeSort, ← List.filter_reverse, get?_filter]

theorem get?_ofList (h : (pairs.map (·.1)).Nodup) (mem : (key, value) ∈ pairs) :
    get? key (ofList pairs) = some value :=
  get?_of_mem (ascending_ofList pairs).nodup ((perm_ofList h).mem_iff.mpr mem)

theorem ofList_perm {ps qs : List (String × α)} (perm : ps.Perm qs)
    (h : (ps.map (·.1)).Nodup) : ofList ps = ofList qs := by
  have same := ((perm_ofList h).trans perm).trans (perm_ofList ((perm.map _).nodup_iff.mp h)).symm
  exact same.eq_of_pairwise (fun a b _ _ lt gt => absurd (lt.trans gt) (lt_irrefl _))
    (ascending_ofList ps) (ascending_ofList qs)

end PodWebhook.Keyed

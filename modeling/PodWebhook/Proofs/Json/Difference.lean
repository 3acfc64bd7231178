import PodWebhook.Json.Diff
import PodWebhook.Proofs.Json.Ordered

/-!
Small differences. A value does not differ from itself, and objects that differ under one key, or
lists that differ item by item, have the differences of their parts.
-/

namespace PodWebhook.Json

theorem lostMembers_eq_nil (path : Pointer) {before after : Keyed Json}
    (kept : ∀ m ∈ before, Keyed.get? m.1 after ≠ none) : lostMembers path before after = [] := by
  rw [lostMembers, List.map_eq_nil_iff, List.filter_eq_nil_iff]
  intro m hm
  rw [Option.isNone_iff_eq_none]
  exact kept m hm

mutual

theorem diffAt_self (path : Pointer) : (value : Json) → Ordered value → diffAt path value value = []
  | .null, _ => by simp [diffAt]
  | .bool _, _ => by simp [diffAt]
  | .number _, _ => by simp [diffAt]
  | .text _, _ => by simp [diffAt]
  | .array items, h => by
      rw [Ordered] at h
      rw [diffAt, diffItems_self path 0 items h]
  | .object members, h => by
      rw [Ordered] at h
      have found : ∀ m ∈ members, Keyed.get? m.1 members = some m.2 :=
        fun m hm => Keyed.get?_of_mem h.1.nodup hm
      rw [diffAt, diffMembers_self path members members h.2 found,
        lostMembers_eq_nil path fun m hm => by simp [found m hm]]
      rfl

theorem diffMembers_self (path : Pointer) (before : Keyed Json) :
    (after : List (String × Json)) → OrderedMembers after →
    (∀ m ∈ after, Keyed.get? m.1 before = some m.2) → diffMembers path before after = []
  | [], _, _ => by rw [diffMembers]
  | (key, value) :: after, h, found => by
      have head := found (key, value) List.mem_cons_self
      simp only at head
      simp only [diffMembers, head]
      rw [diffAt_self (path.push key) value h.1, diffMembers_self path before after h.2
        fun m hm => found m (List.mem_cons_of_mem _ hm)]
      rfl

theorem diffItems_self (path : Pointer) (index : Nat) :
    (items : List Json) → OrderedItems items → diffItems path index items items = []
  | [], _ => by rw [diffItems]; rfl
  | item :: items, h => by
      rw [diffItems, diffAt_self (path.push (Nat.repr index)) item h.1,
        diffItems_self path (index + 1) items h.2]
      rfl

end

def diffMember (path : Pointer) (before : Keyed Json) (key : String) (new : Json) : Patch :=
  match Keyed.get? key before with
  | some old => diffAt (path.push key) old new
  | none => [.add (path.push key) new]

theorem diffMember_self (path : Pointer) {before : Keyed Json} {m : String × Json}
    (found : Keyed.get? m.1 before = some m.2) (ordered : Ordered m.2) :
    diffMember path before m.1 m.2 = [] := by
  simp only [diffMember, found, diffAt_self _ m.2 ordered]

theorem diffMembers_cons (path : Pointer) (before : Keyed Json) (m : String × Json)
    (after : List (String × Json)) : diffMembers path before (m :: after) =
      diffMember path before m.1 m.2 ++ diffMembers path before after := by
  rw [diffMembers]
  rfl

/-- If all other members are as they were, the operations for one of them are all there are. -/
theorem diffMembers_one (path : Pointer) {before after : Keyed Json} {key : String} {new : Json}
    (ascending : Keyed.Ascending after) (found : Keyed.get? key after = some new)
    (same : ∀ m ∈ after, m.1 ≠ key → Keyed.get? m.1 before = some m.2 ∧ Ordered m.2) :
    diffMembers path before after = diffMember path before key new := by
  induction after with
  | nil => cases found
  | cons m after ih =>
      rw [diffMembers_cons]
      by_cases own : m.1 = key
      · obtain ⟨name, value⟩ := m
        subst own
        obtain rfl : value = new := by simpa [Keyed.get?] using found
        have others : ∀ n ∈ after, Keyed.get? n.1 before = some n.2 ∧ Ordered n.2 := fun n hn =>
          same n (List.mem_cons_of_mem _ hn) (List.rel_of_pairwise_cons ascending hn).ne'
        rw [diffMembers_self path before after
          (orderedMembers_iff.mpr fun n hn => (others n hn).2) fun n hn => (others n hn).1,
          List.append_nil]
      · obtain ⟨kept, ordered⟩ := same m List.mem_cons_self own
        rw [diffMember_self path kept ordered, List.nil_append]
        refine ih ascending.of_cons ?_ fun n hn => same n (List.mem_cons_of_mem _ hn)
        simpa [Keyed.get?, own] using found

theorem diffAt_set_member (path : Pointer) {members : Keyed Json} (h : Ordered (.object members))
    (key : String) (new : Json) :
    diffAt path (.object members) (.object (Keyed.set key new members)) =
      diffMember path members key new := by
  obtain ⟨ascending, values⟩ := ordered_object_iff.mp h
  have found : ∀ m ∈ members, Keyed.get? m.1 members = some m.2 :=
    fun m hm => Keyed.get?_of_mem ascending.nodup hm
  have none : lostMembers path members (Keyed.set key new members) = [] := by
    refine lostMembers_eq_nil path fun m hm => ?_
    rw [Keyed.get?_set]
    split
    · exact Option.some_ne_none _
    · simp [found m hm]
  rw [diffAt, none, List.append_nil]
  refine diffMembers_one path (ascending.set key new) (Keyed.get?_set_self key new members)
    fun m hm other => ?_
  rcases Keyed.mem_set hm with rfl | kept
  · exact absurd rfl other
  · exact ⟨found m kept, values m kept⟩

theorem diffAt_set (path : Pointer) {members : Keyed Json} (h : Ordered (.object members))
    {key : String} {old : Json} (found : Keyed.get? key members = some old) (new : Json) :
    diffAt path (.object members) (.object (Keyed.set key new members)) =
      diffAt (path.push key) old new := by
  rw [diffAt_set_member path h]
  simp only [diffMember, found]

theorem diffAt_set_set (path : Pointer) {members : Keyed Json} (ascending : Keyed.Ascending members)
    {key : String} {old : Json} (h : Ordered (.object (Keyed.set key old members))) (new : Json) :
    diffAt path (.object (Keyed.set key old members)) (.object (Keyed.set key new members)) =
      diffAt (path.push key) old new := by
  have same := diffAt_set path h (Keyed.get?_set_self key old members) new
  rwa [Keyed.set_set ascending] at same

theorem diffAt_insert (path : Pointer) {members : Keyed Json} (h : Ordered (.object members))
    {key : String} (absent : Keyed.get? key members = none) (new : Json) :
    diffAt path (.object members) (.object (Keyed.set key new members)) =
      [.add (path.push key) new] := by
  rw [diffAt_set_member path h]
  simp only [diffMember, absent]

theorem diffItems_map {α : Type} (path : Pointer) (before after : α → Json)
    (ops : Nat → α → Patch) {xs : List α}
    (h : ∀ i, ∀ x ∈ xs, diffAt (path.push (Nat.repr i)) (before x) (after x) = ops i x)
    (index : Nat) :
    diffItems path index (xs.map before) (xs.map after) =
      (xs.zipIdx index).flatMap fun p => ops p.2 p.1 := by
  induction xs generalizing index with
  | nil => rw [List.map_nil, List.map_nil, diffItems]; rfl
  | cons x xs ih =>
      rw [List.map_cons, List.map_cons, diffItems, h index x List.mem_cons_self,
        ih (fun i y hy => h i y (List.mem_cons_of_mem x hy)), List.zipIdx_cons,
        List.flatMap_cons]

end PodWebhook.Json

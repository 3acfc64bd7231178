import PodWebhook.Json.Basic
import PodWebhook.Proofs.Ascending

/-!
Values whose objects have their keys in ascending order, at every depth. `sorted` brings any value
into that form, the last one of repeated members winning, and leaves an ordered value as it is.
-/

namespace PodWebhook.Json

mutual

/-- In every object the keys ascend. -/
def Ordered : Json → Prop
  | .array items => OrderedItems items
  | .object members => Keyed.Ascending members ∧ OrderedMembers members
  | _ => True

def OrderedItems : List Json → Prop
  | [] => True
  | item :: items => Ordered item ∧ OrderedItems items

def OrderedMembers : List (String × Json) → Prop
  | [] => True
  | (_, value) :: members => Ordered value ∧ OrderedMembers members

end

mutual

def sorted : Json → Json
  | .array items => .array (sortedItems items)
  | .object members => ofMembers (sortedMembers members)
  | value => value

def sortedItems : List Json → List Json
  | [] => []
  | item :: items => sorted item :: sortedItems items

def sortedMembers : List (String × Json) → List (String × Json)
  | [] => []
  | (key, value) :: members => (key, sorted value) :: sortedMembers members

end

mutual

instance decidableOrdered : (value : Json) → Decidable (Ordered value)
  | .null => isTrue trivial
  | .bool _ => isTrue trivial
  | .number _ => isTrue trivial
  | .text _ => isTrue trivial
  | .array items => decidableOrderedItems items
  | .object members => @instDecidableAnd _ _ (inferInstanceAs (Decidable (List.Pairwise ..)))
      (decidableOrderedMembers members)

instance decidableOrderedItems : (items : List Json) → Decidable (OrderedItems items)
  | [] => isTrue trivial
  | item :: items => @instDecidableAnd _ _ (decidableOrdered item) (decidableOrderedItems items)

instance decidableOrderedMembers :
    (members : List (String × Json)) → Decidable (OrderedMembers members)
  | [] => isTrue trivial
  | (_, value) :: members => @instDecidableAnd _ _ (decidableOrdered value)
      (decidableOrderedMembers members)

end

theorem orderedItems_iff {items : List Json} :
    OrderedItems items ↔ ∀ item ∈ items, Ordered item := by
  induction items with
  | nil => simp [OrderedItems]
  | cons item items ih => simp [OrderedItems, ih]

theorem orderedMembers_iff {members : List (String × Json)} :
    OrderedMembers members ↔ ∀ m ∈ members, Ordered m.2 := by
  induction members with
  | nil => simp [OrderedMembers]
  | cons m members ih => simp [OrderedMembers, ih]

theorem ordered_object_iff {members : Keyed Json} :
    Ordered (.object members) ↔ Keyed.Ascending members ∧ ∀ m ∈ members, Ordered m.2 := by
  rw [Ordered, orderedMembers_iff]

theorem Ordered.get? {key : String} {members : Keyed Json} {value : Json}
    (h : Ordered (.object members)) (found : Keyed.get? key members = some value) :
    Ordered value :=
  (ordered_object_iff.mp h).2 (key, value) (Keyed.mem_of_get? found)

theorem Ordered.member {key : String} {value part : Json} (h : value.Ordered)
    (found : value.get? key = some part) : part.Ordered := by
  cases value with
  | object members => exact h.get? found
  | null | bool | number | text | array => cases found

theorem Ordered.set {members : Keyed Json} {value : Json} (key : String)
    (h : Ordered (.object members)) (hv : Ordered value) :
    Ordered (.object (Keyed.set key value members)) := by
  obtain ⟨ascending, values⟩ := ordered_object_iff.mp h
  refine ordered_object_iff.mpr ⟨ascending.set key value, fun m hm => ?_⟩
  rcases Keyed.mem_set hm with rfl | hmem
  · exact hv
  · exact values m hmem

theorem ordered_ofMembers {members : List (String × Json)} (h : ∀ m ∈ members, m.2.Ordered) :
    (ofMembers members).Ordered := by
  refine ordered_object_iff.mpr ⟨Keyed.ascending_ofList members, fun m hm => h m ?_⟩
  exact List.mem_mergeSort.mp (Keyed.mem_of_mem_keepLast hm)

mutual

theorem ordered_sorted : (value : Json) → Ordered (sorted value)
  | .null => trivial
  | .bool _ => trivial
  | .number _ => trivial
  | .text _ => trivial
  | .array items => by
      rw [sorted, Ordered]
      exact orderedItems_sorted items
  | .object members => by
      rw [sorted]
      exact ordered_ofMembers (orderedMembers_iff.mp (orderedMembers_sorted members))

theorem orderedItems_sorted : (items : List Json) → OrderedItems (sortedItems items)
  | [] => trivial
  | item :: items => ⟨ordered_sorted item, orderedItems_sorted items⟩

theorem orderedMembers_sorted :
    (members : List (String × Json)) → OrderedMembers (sortedMembers members)
  | [] => trivial
  | (_, value) :: members => ⟨ordered_sorted value, orderedMembers_sorted members⟩

end

mutual

theorem sorted_of_ordered : (value : Json) → Ordered value → sorted value = value
  | .null, _ => rfl
  | .bool _, _ => rfl
  | .number _, _ => rfl
  | .text _, _ => rfl
  | .array items, h => by
      rw [Ordered] at h
      rw [sorted, sortedItems_of_ordered items h]
  | .object members, h => by
      rw [Ordered] at h
      rw [sorted, sortedMembers_of_ordered members h.2, ofMembers,
        Keyed.ofList_of_ascending h.1]

theorem sortedItems_of_ordered :
    (items : List Json) → OrderedItems items → sortedItems items = items
  | [], _ => rfl
  | item :: items, h => by
      rw [sortedItems, sorted_of_ordered item h.1, sortedItems_of_ordered items h.2]

theorem sortedMembers_of_ordered :
    (members : List (String × Json)) → OrderedMembers members → sortedMembers members = members
  | [], _ => rfl
  | (key, value) :: members, h => by
      rw [sortedMembers, sorted_of_ordered value h.1, sortedMembers_of_ordered members h.2]

end

theorem sortedMembers_eq_mapValues (members : List (String × Json)) :
    sortedMembers members = Keyed.mapValues sorted members := by
  induction members with
  | nil => rfl
  | cons m members ih =>
      rw [sortedMembers, ih]
      rfl

theorem get?_sorted_object (members : List (String × Json)) (key : String) :
    (sorted (.object members)).get? key = (Keyed.get? key members.reverse).map sorted := by
  simp only [sorted, ofMembers, get?, sortedMembers_eq_mapValues]
  rw [Keyed.get?_ofList_eq, Keyed.mapValues, ← List.map_reverse]
  exact Keyed.get?_mapValues ..

theorem get?_sorted {members : List (String × Json)} (distinct : (members.map (·.1)).Nodup)
    (key : String) :
    (sorted (.object members)).get? key = ((Json.object members).get? key).map sorted := by
  rw [get?_sorted_object, ← Keyed.get?_perm members.reverse_perm.symm distinct]
  rfl

end PodWebhook.Json

import PodWebhook.Json.Pointer
import PodWebhook.Proofs.Json.Ordered

/-!
Changing parts of a value in place. What is not on the way to the changed parts stays as it is, and
so does a value that has no such parts.
-/

namespace PodWebhook.Json

def mapMember (key : String) (change : Json → Json) : Json → Json
  | .object members =>
    match Keyed.get? key members with
    | some part => .object (Keyed.set key (change part) members)
    | none => .object members
  | value => value

def mapItems (change : Json → Json) : Json → Json
  | .array items => .array (items.map change)
  | value => value

def setMember (value : Json) (key : String) (part : Json) : Json :=
  match value with
  | .object members => .object (Keyed.set key part members)
  | value => value

theorem mapMember_object {key : String} {members : Keyed Json} {part : Json}
    (found : Keyed.get? key members = some part) (change : Json → Json) :
    mapMember key change (.object members) = .object (Keyed.set key (change part) members) := by
  rw [mapMember, found]

theorem get?_mapMember_self (key : String) (change : Json → Json) (value : Json) :
    (mapMember key change value).get? key = (value.get? key).map change := by
  cases value with
  | object members =>
      rw [mapMember]
      split
      · next part found => rw [get?, get?, found, Keyed.get?_set_self]; rfl
      · next missing => rw [get?, missing]; rfl
  | null | bool | number | text | array => rfl

theorem get?_mapMember_of_ne {key other : String} (ne : other ≠ key) (change : Json → Json)
    (value : Json) : (mapMember key change value).get? other = value.get? other := by
  cases value with
  | object members =>
      rw [mapMember]
      split
      · rw [get?, get?, Keyed.get?_set_of_ne ne]
      · rfl
  | null | bool | number | text | array => rfl

theorem mapMember_of_eq {key : String} {change : Json → Json} {value : Json}
    (ordered : value.Ordered) (h : ∀ part, value.get? key = some part → change part = part) :
    mapMember key change value = value := by
  cases value with
  | object members =>
      rw [mapMember]
      split
      · next part found =>
        rw [h part found, Keyed.set_of_get? (ordered_object_iff.mp ordered).1 found]
      · rfl
  | null | bool | number | text | array => rfl

theorem Ordered.mapMember {value : Json} (h : value.Ordered) (key : String) {change : Json → Json}
    (kept : ∀ part, value.get? key = some part → part.Ordered → (change part).Ordered) :
    (mapMember key change value).Ordered := by
  cases value with
  | object members =>
      rw [Json.mapMember]
      split
      · next part found => exact h.set key (kept part found (h.get? found))
      · exact h
  | null | bool | number | text | array => exact h

theorem Ordered.mapItems {value : Json} (h : value.Ordered) {change : Json → Json}
    (kept : ∀ item, item.Ordered → (change item).Ordered) :
    (mapItems change value).Ordered := by
  cases value with
  | array items =>
      rw [Ordered, orderedItems_iff] at h
      rw [Json.mapItems, Ordered, orderedItems_iff, List.forall_mem_map]
      exact fun item hi => kept item (h item hi)
  | null | bool | number | text | object => exact h

theorem Ordered.setMember {value part : Json} (h : value.Ordered) (key : String)
    (hp : part.Ordered) : (value.setMember key part).Ordered := by
  cases value with
  | object members => exact h.set key hp
  | null | bool | number | text | array => exact h

theorem mapMember_congr {key : String} {first second : Json → Json} {value : Json}
    (h : ∀ part, value.get? key = some part → first part = second part) :
    mapMember key first value = mapMember key second value := by
  cases value with
  | object members =>
      cases found : Keyed.get? key members with
      | none => simp only [mapMember, found]
      | some part => rw [mapMember_object found, mapMember_object found, h part found]
  | null | bool | number | text | array => rfl

theorem mapMember_mapMember {value : Json} (ordered : value.Ordered) (key : String)
    (first second : Json → Json) :
    mapMember key second (mapMember key first value) =
      mapMember key (fun part => second (first part)) value := by
  cases value with
  | object members =>
      cases found : Keyed.get? key members with
      | none => simp only [mapMember, found]
      | some part =>
          rw [mapMember_object found, mapMember_object (Keyed.get?_set_self _ _ _),
            mapMember_object found, Keyed.set_set (ordered_object_iff.mp ordered).1]
  | null | bool | number | text | array => rfl

/-- Neither of two ways leads along the other. -/
def Apart (first second : List String) : Prop :=
  ¬ first <+: second ∧ ¬ second <+: first

/-- A way that does not stop on the way to `key :: rest` leads past the member, or on inside of
it. -/
theorem follow?_mapMember {key : String} {change : Json → Json} {value : Json}
    {steps rest : List String} (onward : ¬ steps <+: key :: rest)
    (h : ∀ part tail, value.get? key = some part → steps = key :: tail →
      (change part).follow? tail = part.follow? tail) :
    (mapMember key change value).follow? steps = value.follow? steps := by
  cases value with
  | object members =>
      cases steps with
      | nil => exact absurd List.nil_prefix onward
      | cons step tail =>
          rw [mapMember]
          split
          · next part found =>
            rw [follow?, follow?, child?, child?]
            by_cases own : step = key
            · subst own
              rw [Keyed.get?_set_self, found, Option.bind_some, Option.bind_some]
              exact h part tail found rfl
            · rw [Keyed.get?_set_of_ne own]
          · rfl
  | null | bool | number | text | array => rfl

theorem follow?_mapItems {change : Json → Json} {value : Json} {step : String} {steps : List String}
    (h : ∀ items i item, value = .array items → Pointer.index? step = some i →
      items[i]? = some item → (change item).follow? steps = item.follow? steps) :
    (mapItems change value).follow? (step :: steps) = value.follow? (step :: steps) := by
  cases value with
  | array items =>
      rw [mapItems, follow?, follow?, child?, child?]
      cases index : Pointer.index? step with
      | none => rfl
      | some i =>
          simp only [Option.bind_some, List.getElem?_map]
          cases found : items[i]? with
          | none => rfl
          | some item => exact h items i item rfl index found
  | null | bool | number | text | object => rfl

theorem follow?_setMember_of_ne {key step : String} (ne : step ≠ key) (part value : Json)
    (steps : List String) :
    (value.setMember key part).follow? (step :: steps) = value.follow? (step :: steps) := by
  cases value with
  | object members =>
      rw [setMember, follow?, follow?, child?, child?, Keyed.get?_set_of_ne ne]
  | null | bool | number | text | array => rfl

end PodWebhook.Json

import Mathlib.Data.List.Induction
import Mathlib.Tactic.IntervalCases
import PodWebhook.Json.Patch
import PodWebhook.Proofs.Json.Writing

/-!
Patches on their way and at work: the text of a patch is read back as that patch, and a change below
a pointer is a change of the parts on the way.
-/

namespace PodWebhook.Json

namespace Pointer

theorem digit?_digitChar {d : Nat} (h : d < 10) : digit? (Nat.digitChar d) = some d := by
  interval_cases d <;> rfl

theorem foldl_toDigits (n : Nat) :
    (Nat.toDigits 10 n).foldl (fun n c => n.bind fun n => (digit? c).map (10 * n + ·)) (some 0) =
      some n := by
  induction n using Nat.strongRecOn with
  | ind n ih =>
      rw [Nat.toDigits_eq_if (by omega)]
      split
      · next small => simp [digit?_digitChar small]
      · next large =>
        have last : n % 10 < 10 := Nat.mod_lt n (by omega)
        rw [List.foldl_append, ih (n / 10) (by omega)]
        simp [digit?_digitChar last]
        omega

theorem head?_toDigits {n : Nat} (h : (Nat.toDigits 10 n).head? = some '0') : n = 0 := by
  induction n using Nat.strongRecOn with
  | ind n ih =>
      rw [Nat.toDigits_eq_if (by omega)] at h
      split at h
      · next small =>
        have same := Option.some.inj h
        interval_cases n
        · rfl
        all_goals exact absurd same (by decide)
      · next large =>
        rw [List.head?_append_of_ne_nil _ Nat.toDigits_ne_nil] at h
        have zero := ih (n / 10) (by omega) h
        omega

theorem index?_repr (n : Nat) : index? (Nat.repr n) = some n := by
  have digits := foldl_toDigits n
  unfold index?
  rw [Nat.toList_repr]
  split
  · next empty => exact absurd empty Nat.toDigits_ne_nil
  · next c cs zero =>
    obtain rfl := head?_toDigits (n := n) (by rw [zero]; rfl)
    exact absurd zero (by simp)
  · exact digits

theorem digitChar_of_digit? {c : Char} {d : Nat} (h : digit? c = some d) :
    d < 10 ∧ c = Nat.digitChar d := by
  rw [digit?] at h
  split at h
  · next range =>
    obtain rfl := Option.some.inj h
    have low : 48 ≤ c.toNat := range.1
    have high : c.toNat ≤ 57 := range.2
    have small : c.toNat - 0x30 < 10 := by omega
    refine ⟨small, Char.toNat_inj.mp ?_⟩
    rw [Nat.toNat_digitChar_of_lt_ten small]
    omega
  · cases h

theorem toDigits_of_foldl {cs : List Char} (nonempty : cs ≠ [])
    (leading : cs.length = 1 ∨ cs.head? ≠ some '0') {n : Nat}
    (h : cs.foldl (fun n c => n.bind fun n => (digit? c).map (10 * n + ·)) (some 0) = some n) :
    cs = Nat.toDigits 10 n := by
  induction cs using List.reverseRecOn generalizing n with
  | nil => exact absurd rfl nonempty
  | append_singleton front c ih =>
      rw [List.foldl_append] at h
      obtain ⟨m, hm, h⟩ := Option.bind_eq_some_iff.mp h
      obtain ⟨d, hd, rfl⟩ := Option.map_eq_some_iff.mp h
      obtain ⟨small, rfl⟩ := digitChar_of_digit? hd
      cases front with
      | nil =>
          obtain rfl := Option.some.inj hm
          simp [Nat.toDigits_of_lt_base small]
      | cons b front =>
          have first : b ≠ '0' := by simpa using leading
          have same := ih (List.cons_ne_nil b front) (.inr (by simpa using first)) hm
          have positive : 0 < m := by
            refine Nat.pos_of_ne_zero fun zero => first ?_
            rw [zero, Nat.toDigits_zero] at same
            exact (List.cons.inj same).1
          have whole : Nat.toDigits 10 (10 * m + d) =
              Nat.toDigits 10 ((10 * m + d) / 10) ++ [Nat.digitChar ((10 * m + d) % 10)] :=
            Nat.toDigits_of_base_le (by omega) (by omega)
          rw [same, whole, show (10 * m + d) / 10 = m by omega,
            show (10 * m + d) % 10 = d by omega]

theorem index?_eq_some_iff {step : String} {n : Nat} :
    index? step = some n ↔ step = Nat.repr n := by
  refine ⟨fun h => ?_, fun h => h ▸ index?_repr n⟩
  unfold index? at h
  split at h
  · cases h
  · cases h
  · next cs nonempty leading =>
    refine String.toList_inj.mp ?_
    rw [Nat.toList_repr]
    refine toDigits_of_foldl (fun empty => nonempty empty) ?_ h
    cases chars : step.toList with
    | nil => exact absurd chars nonempty
    | cons c cs =>
        cases cs with
        | nil => exact .inl rfl
        | cons next cs => exact .inr fun zero => leading next cs (by rw [chars]; simpa using zero)

end Pointer

theorem modifyAt?_append (change : Json → Option Json) (value : Json) (steps more : List String) :
    value.modifyAt? change (steps ++ more) =
      value.modifyAt? (fun part => part.modifyAt? change more) steps := by
  induction steps generalizing value with
  | nil => rfl
  | cons step steps ih =>
      simp only [List.cons_append, modifyAt?, ih]

theorem modifyAt?_member {change : Json → Option Json} {members : Keyed Json} {key : String}
    {part new : Json} {steps : List String} (found : Keyed.get? key members = some part)
    (changed : part.modifyAt? change steps = some new) :
    (Json.object members).modifyAt? change (key :: steps) =
      some (.object (Keyed.set key new members)) := by
  simp [modifyAt?, child?, setChild, found, changed]

theorem modifyAt?_item {change : Json → Option Json} {items : List Json} {i : Nat}
    {part new : Json} {steps : List String} (found : items[i]? = some part)
    (changed : part.modifyAt? change steps = some new) :
    (Json.array items).modifyAt? change (Nat.repr i :: steps) =
      some (.array (items.set i new)) := by
  simp [modifyAt?, child?, setChild, Pointer.index?_repr, found, changed]

namespace Operation

theorem pointerOf?_text {value : Json} {key : String} {path : Pointer}
    (h : value.get? key = some (.text path.toText)) : pointerOf? key value = some path := by
  rw [pointerOf?, h]
  exact Pointer.parse?_toText path

theorem ofJson?_toJson (op : Operation) : ofJson? op.toJson = some op := by
  cases op with
  | add path value | remove path | replace path value | test path value =>
      simp only [ofJson?, toJson]
      rw [@pointerOf?_text _ _ path rfl]
      rfl
  | move source path | copy source path =>
      simp only [ofJson?, toJson]
      rw [@pointerOf?_text _ _ path rfl, @pointerOf?_text _ _ source rfl]
      rfl

def value? : Operation → Option Json
  | add _ value | replace _ value | test _ value => some value
  | remove _ | move _ _ | copy _ _ => none

/-- An operation whose value survives being written and read inside the list of operations. -/
structure Portable (op : Operation) : Prop where
  integral : ∀ value ∈ op.value?, value.Integral
  ordered : ∀ value ∈ op.value?, value.Ordered
  depth : ∀ value ∈ op.value?, value.depth + 2 ≤ Document.maxDepth

theorem portable_of_value {op : Operation} {value : Json} (h : op.value? = some value)
    (integral : value.Integral) (ordered : value.Ordered)
    (depth : value.depth + 2 ≤ Document.maxDepth) : op.Portable := by
  have carried : ∀ other ∈ op.value?, value = other := fun _ member =>
    Option.some.inj (h.symm.trans member)
  refine ⟨fun other member => ?_, fun other member => ?_, fun other member => ?_⟩ <;>
    rw [← carried other member]
  · exact integral
  · exact ordered
  · exact depth

theorem portable_of_valueless {op : Operation} (h : op.value? = none) : op.Portable := by
  refine ⟨?_, ?_, ?_⟩ <;> simp [h]

theorem Portable.integral_toJson {op : Operation} (h : op.Portable) : op.toJson.Integral := by
  cases op with
  | add path value | replace path value | test path value =>
      exact ⟨trivial, trivial, h.integral value rfl, trivial⟩
  | remove path => exact ⟨trivial, trivial, trivial⟩
  | move source path | copy source path => exact ⟨trivial, trivial, trivial, trivial⟩

theorem Portable.depth_toJson {op : Operation} (h : op.Portable) :
    op.toJson.depth + 1 ≤ Document.maxDepth := by
  cases op with
  | add path value | replace path value | test path value =>
      have shallow := h.depth value rfl
      simp only [toJson, Json.depth, depthMembers]
      omega
  | remove path | move source path | copy source path =>
      simp [toJson, Json.depth, depthMembers, Document.maxDepth]

/-- The order in which the members of an operation are written does not matter when it is read. -/
theorem Portable.get?_sorted_toJson {op : Operation} (h : op.Portable) (key : String) :
    op.toJson.sorted.get? key = op.toJson.get? key := by
  have whole : ∀ members : List (String × Json), (members.map (·.1)).Nodup →
      (∀ m ∈ members, m.2.Ordered) →
      (sorted (.object members)).get? key = (Json.object members).get? key := by
    intro members distinct ordered
    rw [get?_sorted distinct]
    cases found : (Json.object members).get? key with
    | none => rfl
    | some value =>
        have inside := ordered (key, value) (Keyed.mem_of_get? found)
        rw [Option.map_some, sorted_of_ordered value inside]
  cases op with
  | add path value | replace path value | test path value =>
      have ordered := h.ordered value rfl
      exact whole _ (by simp) (by simp [Ordered, ordered])
  | remove path | move source path | copy source path =>
      exact whole _ (by simp) (by simp [Ordered])

theorem Portable.ofJson?_sorted {op : Operation} (h : op.Portable) :
    ofJson? op.toJson.sorted = some op := by
  rw [← ofJson?_toJson op]
  simp only [ofJson?, pointerOf?, h.get?_sorted_toJson]

end Operation

namespace Patch

theorem ofJson?_sorted {patch : Patch} (h : ∀ op ∈ patch, op.Portable) :
    ofJson? patch.toJson.sorted = some patch := by
  rw [toJson, sorted, ofJson?]
  induction patch with
  | nil => rfl
  | cons op patch ih =>
      obtain ⟨head, tail⟩ := List.forall_mem_cons.mp h
      simp [sortedItems, head.ofJson?_sorted, ih tail]

theorem parse_compact_toJson {patch : Patch} (h : ∀ op ∈ patch, op.Portable) :
    parse (Bytes.utf8 patch.toJson.compact) = .ok patch.toJson.sorted := by
  refine parse_compact ?_ ?_
  · rw [toJson, Integral, integralItems_iff, List.forall_mem_map]
    exact fun op hop => (h op hop).integral_toJson
  · rw [toJson, Json.depth]
    refine Nat.succ_le_of_lt (Nat.lt_of_le_of_lt (m := Document.maxDepth - 1) ?_ (by decide))
    refine depthItems_le (List.forall_mem_map.mpr fun op hop => ?_)
    exact Nat.le_sub_of_add_le (h op hop).depth_toJson

end Patch

end PodWebhook.Json

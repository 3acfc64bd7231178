import PodWebhook.Json.Number
import PodWebhook.Keyed

/-!
JSON values. The objects read from a text have their members in ascending order of the keys, each
key once.
-/

namespace PodWebhook

inductive Json where
  | null
  | bool (value : Bool)
  | number (value : Json.Number)
  | text (value : String)
  | array (items : List Json)
  | object (members : List (String × Json))
  deriving Inhabited, Repr

namespace Json

mutual

def same : Json → Json → Bool
  | .null, .null => true
  | .bool a, .bool b => a == b
  | .number a, .number b => a == b
  | .text a, .text b => a == b
  | .array a, .array b => sameItems a b
  | .object a, .object b => sameMembers a b
  | _, _ => false

def sameItems : List Json → List Json → Bool
  | [], [] => true
  | a :: as, b :: bs => same a b && sameItems as bs
  | _, _ => false

def sameMembers : List (String × Json) → List (String × Json) → Bool
  | [], [] => true
  | (k, a) :: as, (l, b) :: bs => k == l && same a b && sameMembers as bs
  | _, _ => false

end

mutual

theorem same_self : (a : Json) → same a a = true
  | .null => rfl
  | .bool _ => by simp [same]
  | .number _ => by simp [same]
  | .text _ => by simp [same]
  | .array as => by simp [same, sameItems_self as]
  | .object as => by simp [same, sameMembers_self as]

theorem sameItems_self : (as : List Json) → sameItems as as = true
  | [] => rfl
  | a :: as => by simp [sameItems, same_self a, sameItems_self as]

theorem sameMembers_self : (as : List (String × Json)) → sameMembers as as = true
  | [] => rfl
  | (_, a) :: as => by simp [sameMembers, same_self a, sameMembers_self as]

end

mutual

theorem eq_of_same : (a b : Json) → same a b = true → a = b
  | .null, b => by cases b <;> simp [same]
  | .bool _, b => by cases b <;> simp [same]
  | .number _, b => by cases b <;> simp [same]
  | .text _, b => by cases b <;> simp [same]
  | .array as, b => by
      cases b with
      | array bs => simpa [same] using eq_of_sameItems as bs
      | _ => simp [same]
  | .object as, b => by
      cases b with
      | object bs => simpa [same] using eq_of_sameMembers as bs
      | _ => simp [same]

theorem eq_of_sameItems : (as bs : List Json) → sameItems as bs = true → as = bs
  | [], bs => by cases bs <;> simp [sameItems]
  | a :: as, bs => by
      cases bs with
      | nil => simp [sameItems]
      | cons b bs =>
        simp only [sameItems, Bool.and_eq_true, List.cons.injEq]
        exact fun h => ⟨eq_of_same a b h.1, eq_of_sameItems as bs h.2⟩

theorem eq_of_sameMembers : (as bs : List (String × Json)) → sameMembers as bs = true → as = bs
  | [], bs => by cases bs <;> simp [sameMembers]
  | (k, a) :: as, bs => by
      cases bs with
      | nil => simp [sameMembers]
      | cons b bs =>
        simp only [sameMembers, Bool.and_eq_true, List.cons.injEq, beq_iff_eq]
        exact fun h => ⟨Prod.ext h.1.1 (eq_of_same a b.2 h.1.2), eq_of_sameMembers as bs h.2⟩

end

theorem same_iff {a b : Json} : same a b = true ↔ a = b :=
  ⟨eq_of_same a b, fun h => h ▸ same_self a⟩

instance : DecidableEq Json := fun _ _ => decidable_of_iff _ same_iff

def natural (n : Nat) : Json := .number (.int n)

def ofMembers (members : List (String × Json)) : Json := .object (Keyed.ofList members)

def get? (key : String) : Json → Option Json
  | .object members => Keyed.get? key members
  | _ => none

end Json

end PodWebhook

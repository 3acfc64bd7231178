import PodWebhook.Json.Patch

/-!
The difference of two values as a patch. Objects are compared member by member and lists item by
item; whatever else differs is replaced. The members of the new object come first, in their order,
and those that are lost after them. A list that grows has its new items added at the end; one that
shrinks loses its surplus items in their order, each of them from the place of the first.
-/

namespace PodWebhook.Json

def removals (path : Pointer) (index : Nat) (surplus : List Json) : Patch :=
  surplus.map fun _ => .remove (path.push (Nat.repr index))

def additions (path : Pointer) : (index : Nat) → List Json → Patch
  | _, [] => []
  | index, item :: items =>
    .add (path.push (Nat.repr index)) item :: additions path (index + 1) items

def lostMembers (path : Pointer) (before after : Keyed Json) : Patch :=
  (before.filter fun m => (Keyed.get? m.1 after).isNone).map fun m => .remove (path.push m.1)

mutual

def diffAt (path : Pointer) : (before after : Json) → Patch
  | .object before, .object after =>
    diffMembers path before after ++ lostMembers path before after
  | .array before, .array after => diffItems path 0 before after
  | before, after => if before = after then [] else [.replace path after]

/-- Compares members with those of the same key in `before`; a member without one is added. -/
def diffMembers (path : Pointer) (before : Keyed Json) : (after : List (String × Json)) → Patch
  | [] => []
  | (key, value) :: after =>
    (match Keyed.get? key before with
      | some old => diffAt (path.push key) old value
      | none => [.add (path.push key) value]) ++ diffMembers path before after

def diffItems (path : Pointer) (index : Nat) : (before after : List Json) → Patch
  | before, [] => removals path index before
  | [], after => additions path index after
  | b :: before, a :: after =>
    diffAt (path.push (Nat.repr index)) b a ++ diffItems path (index + 1) before after

end

def diff (before after : Json) : Patch := diffAt ⟨[]⟩ before after

end PodWebhook.Json

/-!
Values under text keys, as a list in ascending order of the keys, code point by code point, with no
key twice. `ofList` brings pairs in any order into that form, the last one of a key winning; `set`
and `erase` keep it.
-/

namespace PodWebhook

abbrev Keyed (α : Type) := List (String × α)

namespace Keyed

variable {α : Type}

def get? (key : String) : Keyed α → Option α
  | [] => none
  | (k, v) :: rest => if k = key then some v else get? key rest

def set (key : String) (value : α) : Keyed α → Keyed α
  | [] => [(key, value)]
  | (k, v) :: rest =>
    if k = key then (key, value) :: rest
    else if key < k then (key, value) :: (k, v) :: rest
    else (k, v) :: set key value rest

def erase (key : String) : Keyed α → Keyed α
  | [] => []
  | (k, v) :: rest => if k = key then rest else (k, v) :: erase key rest

/-- Of neighbours with the same key the last stays. -/
def keepLast (pairs : Keyed α) : Keyed α :=
  pairs.foldr
    (fun m kept =>
      match kept with
      | [] => [m]
      | n :: _ => if m.1 = n.1 then kept else m :: kept)
    []

def ofList (pairs : List (String × α)) : Keyed α :=
  keepLast (pairs.mergeSort fun a b => decide (a.1 ≤ b.1))

theorem get?_set_self (key : String) (value : α) (pairs : Keyed α) :
    get? key (set key value pairs) = some value := by
  induction pairs with
  | nil => simp [set, get?]
  | cons m ms ih =>
    obtain ⟨k, v⟩ := m
    simp only [set]
    split
    · simp [get?]
    · split
      · simp [get?]
      · simp [get?, *]

theorem get?_set_of_ne {key other : String} (h : other ≠ key) (value : α) (pairs : Keyed α) :
    get? other (set key value pairs) = get? other pairs := by
  induction pairs with
  | nil => simp [set, get?, Ne.symm h]
  | cons m ms ih =>
    obtain ⟨k, v⟩ := m
    simp only [set]
    split
    · next hk => subst hk; simp [get?, Ne.symm h]
    · split
      · simp [get?, Ne.symm h]
      · simp [get?, ih]

end Keyed

end PodWebhook

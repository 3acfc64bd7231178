import PodWebhook.Proofs.Json.Trees

/-!
Trees that are alike: they differ in the places of their parts, in the faults at parts that cannot
be read, and in the order of members under distinct names. All that is in them can be skipped, and
one can be read as a value when the other can, as the same one.
-/

namespace PodWebhook.Json

/-- Keys that can be skipped, and are read as the same name or not at all. -/
structure Key.Alike (k l : Key) : Prop where
  left : k.unskippable = none
  right : l.unskippable = none
  name : k.name.toOption = l.name.toOption

namespace Node

def names (members : List (Key × Node)) : List String :=
  members.filterMap fun m => m.1.name.toOption

/-- The same members in the same order, or in any order if no two of them have one name. -/
inductive Arranged : List (Key × Node) → List (Key × Node) → Prop where
  | same (members : List (Key × Node)) : Arranged members members
  | permuted {members others : List (Key × Node)} (distinct : (names members).Nodup)
      (order : members.Perm others) : Arranged members others

theorem Arranged.perm {members others : List (Key × Node)} (h : Arranged members others) :
    members.Perm others := by
  cases h with
  | same => exact List.Perm.refl _
  | permuted _ order => exact order

inductive Alike : Node → Node → Prop where
  | null (stop stop' : Nat) : Alike (.null stop) (.null stop')
  | bool (stop stop' : Nat) (value : Bool) : Alike (.bool stop value) (.bool stop' value)
  | number (start stop start' stop' : Nat) (value : Number) :
      Alike (.number start stop value) (.number start' stop' value)
  | text (start stop start' stop' : Nat) (value : String) :
      Alike (.text start stop value) (.text start' stop' value)
  | array (start opened stop start' opened' stop' : Nat) {items items' : List Node}
      (h : List.Forall₂ Alike items items') :
      Alike (.array start opened items (.closed stop))
        (.array start' opened' items' (.closed stop'))
  | object (start stop start' stop' : Nat) {members middle members' : List (Key × Node)}
      (keys : List.Forall₂ Key.Alike (members.map (·.1)) (middle.map (·.1)))
      (values : List.Forall₂ Alike (members.map (·.2)) (middle.map (·.2)))
      (order : Arranged middle members') :
      Alike (.object start members (.closed stop)) (.object start' members' (.closed stop'))
  | unreadable (start start' : Nat) (fault fault' : Fault) :
      Alike (.unreadable start fault) (.unreadable start' fault')

def MemberAlike (m n : Key × Node) : Prop := m.1.Alike n.1 ∧ m.2.Alike n.2

theorem forall₂_memberAlike {members middle : List (Key × Node)}
    (keys : List.Forall₂ Key.Alike (members.map (·.1)) (middle.map (·.1)))
    (values : List.Forall₂ Alike (members.map (·.2)) (middle.map (·.2))) :
    List.Forall₂ MemberAlike members middle := by
  rw [List.forall₂_map_left_iff, List.forall₂_map_right_iff] at keys values
  exact forall₂_and keys values

theorem skipItems_eq_ok_iff {items : List Node} :
    skipItems items = .ok () ↔ ∀ item ∈ items, item.skip = .ok () := by
  induction items with
  | nil => simp [skipItems]
  | cons item items ih =>
      rw [List.forall_mem_cons, ← ih, skipItems]
      cases item.skip <;> simp

theorem skipMembers_eq_ok_iff {members : List (Key × Node)} :
    skipMembers members = .ok () ↔
      ∀ m ∈ members, m.1.unskippable = none ∧ m.2.skip = .ok () := by
  induction members with
  | nil => simp [skipMembers]
  | cons m members ih =>
      obtain ⟨key, value⟩ := m
      rw [List.forall_mem_cons, ← ih, skipMembers]
      cases key.unskippable <;> cases value.skip <;> simp

def value? (node : Node) : Option Json := node.toJson.toOption

theorem itemsToJson_toOption (items : List Node) (values : List Json) :
    (itemsToJson items values).toOption =
      (items.mapM value?).map (values.reverse ++ ·) := by
  induction items generalizing values with
  | nil => simp [itemsToJson, Except.toOption]
  | cons item items ih =>
      rw [itemsToJson, List.mapM_cons, value?]
      cases item.toJson with
      | error fault => rfl
      | ok value =>
          simp only [ih]
          cases items.mapM value? <;> simp [Except.toOption]

theorem membersToJson_toOption (members : List (Key × Node)) (values : List (String × Json)) :
    (membersToJson members values).toOption =
      (members.mapM (pair? value?)).map (values.reverse ++ ·) := by
  induction members generalizing values with
  | nil => simp [membersToJson, Except.toOption]
  | cons m members ih =>
      obtain ⟨key, node⟩ := m
      rw [membersToJson, List.mapM_cons, pair?, value?]
      cases key.name with
      | error fault => rfl
      | ok name =>
          cases node.toJson with
          | error fault => rfl
          | ok value =>
              simp only [ih]
              cases members.mapM (pair? value?) <;> simp [Except.toOption]

theorem names_of_mapM {β : Type} {value? : Node → Option β} {members : List (Key × Node)}
    {entries : List (String × β)} (h : members.mapM (pair? value?) = some entries) :
    entries.map (·.1) = names members := by
  have each := mapM_eq_some_iff.mp h
  clear h
  induction each with
  | nil => rfl
  | @cons m entry members entries head _ ih =>
      obtain ⟨name, named, made⟩ := Option.bind_eq_some_iff.mp head
      obtain ⟨value, _, rfl⟩ := Option.map_eq_some_iff.mp made
      rw [List.map_cons, ih, names, names, List.filterMap_cons, named]

section Members

variable {β : Type} {members middle others : List (Key × Node)}

theorem pair?_alike {value? : Node → Option β} (alike : List.Forall₂ MemberAlike members middle)
    (same : ∀ m ∈ members, ∀ other, m.2.Alike other → value? m.2 = value? other) :
    members.mapM (pair? value?) = middle.mapM (pair? value?) :=
  mapM_congr_forall₂ alike fun m hm n pair => by
    rw [pair?, pair?, pair.1.name, same m hm n.2 pair.2]

theorem ofList_entries {value? : Node → Option β}
    (alike : List.Forall₂ MemberAlike members middle) (order : Arranged middle others)
    (same : ∀ m ∈ members, ∀ other, m.2.Alike other → value? m.2 = value? other) :
    (members.mapM (pair? value?)).map Keyed.ofList =
      (others.mapM (pair? value?)).map Keyed.ofList := by
  rw [pair?_alike alike same]
  cases order with
  | same => rfl
  | permuted distinct order =>
      refine map_mapM_perm order fun as bs read perm => Keyed.ofList_perm perm ?_
      rw [names_of_mapM read]
      exact distinct

end Members

theorem toJson_array (start opened stop : Nat) (items : List Node) :
    (array start opened items (.closed stop)).value? = (items.mapM value?).map .array := by
  have read := itemsToJson_toOption items []
  rw [value?, toJson]
  cases whole : itemsToJson items [] with
  | error fault =>
      rw [whole] at read
      cases mapped : items.mapM value? <;> simp_all [Except.toOption]
  | ok values =>
      rw [whole] at read
      cases mapped : items.mapM value? <;> simp_all [Except.toOption, Ending.read]

theorem toJson_object (start stop : Nat) (members : List (Key × Node)) :
    (object start members (.closed stop)).value? =
      ((members.mapM (pair? value?)).map Keyed.ofList).map .object := by
  have read := membersToJson_toOption members []
  rw [value?, toJson]
  cases whole : membersToJson members [] with
  | error fault =>
      rw [whole] at read
      cases mapped : members.mapM (pair? value?) <;> simp_all [Except.toOption]
  | ok values =>
      rw [whole] at read
      cases mapped : members.mapM (pair? value?) <;>
        simp_all [Except.toOption, Ending.read, Json.ofMembers]

mutual

theorem Alike.value? : (node : Node) → ∀ {other : Node}, node.Alike other →
    node.value? = other.value?
  | .array _ _ items _, _, h => by
      cases h with
      | array _ _ _ _ _ _ pairs =>
          rw [toJson_array, toJson_array, mapM_congr_forall₂ pairs (items_value? items)]
  | .object _ members _, _, h => by
      cases h with
      | object _ _ _ _ keys values order =>
          rw [toJson_object, toJson_object, ofList_entries (forall₂_memberAlike keys values) order
            (members_value? members)]
  | .null _, _, h => by cases h; rfl
  | .bool _ _, _, h => by cases h; rfl
  | .number _ _ _, _, h => by cases h; rfl
  | .text _ _ _, _, h => by cases h; rfl
  | .unreadable _ _, _, h => by cases h; rfl
  | .broken _ _ _, _, h => nomatch h

theorem items_value? : (items : List Node) → ∀ item ∈ items, ∀ other, item.Alike other →
    item.value? = other.value?
  | [] => List.forall_mem_nil _
  | item :: items =>
      List.forall_mem_cons.mpr ⟨fun _ h => Alike.value? item h, items_value? items⟩

theorem members_value? : (members : List (Key × Node)) → ∀ m ∈ members, ∀ other,
    m.2.Alike other → m.2.value? = other.value?
  | [] => List.forall_mem_nil _
  | (_, node) :: members =>
      List.forall_mem_cons.mpr ⟨fun _ h => Alike.value? node h, members_value? members⟩

end

mutual

theorem Alike.skip : (node : Node) → ∀ {other : Node}, node.Alike other →
    node.skip = .ok () ∧ other.skip = .ok ()
  | .array _ _ items _, _, h => by
      cases h with
      | @array _ _ _ _ _ _ _ others pairs =>
          have each := items_skip items
          have left : skipItems items = .ok () := skipItems_eq_ok_iff.mpr fun item hi => by
            obtain ⟨other, _, alike⟩ := exists_of_forall₂_left pairs hi
            exact (each item hi other alike).1
          have right : skipItems others = .ok () := skipItems_eq_ok_iff.mpr fun other ho => by
            obtain ⟨item, hi, alike⟩ := exists_of_forall₂_right pairs ho
            exact (each item hi other alike).2
          rw [Node.skip, Node.skip, left, right]
          exact ⟨rfl, rfl⟩
  | .object _ members _, _, h => by
      cases h with
      | @object _ _ _ _ _ _ others keys values order =>
          have each := members_skip members
          have pairs := forall₂_memberAlike keys values
          have left : skipMembers members = .ok () := skipMembers_eq_ok_iff.mpr fun m hm => by
            obtain ⟨n, _, key, alike⟩ := exists_of_forall₂_left pairs hm
            exact ⟨key.left, (each m hm n.2 alike).1⟩
          have right : skipMembers others = .ok () := skipMembers_eq_ok_iff.mpr fun n hn => by
            obtain ⟨m, hm, key, alike⟩ := exists_of_forall₂_right pairs (order.perm.mem_iff.mpr hn)
            exact ⟨key.right, (each m hm n.2 alike).2⟩
          rw [Node.skip, Node.skip, left, right]
          exact ⟨rfl, rfl⟩
  | .null _, _, h => by cases h; exact ⟨rfl, rfl⟩
  | .bool _ _, _, h => by cases h; exact ⟨rfl, rfl⟩
  | .number _ _ _, _, h => by cases h; exact ⟨rfl, rfl⟩
  | .text _ _ _, _, h => by cases h; exact ⟨rfl, rfl⟩
  | .unreadable _ _, _, h => by cases h; exact ⟨rfl, rfl⟩
  | .broken _ _ _, _, h => nomatch h

theorem items_skip : (items : List Node) → ∀ item ∈ items, ∀ other, item.Alike other →
    item.skip = .ok () ∧ other.skip = .ok ()
  | [] => List.forall_mem_nil _
  | item :: items =>
      List.forall_mem_cons.mpr ⟨fun _ h => Alike.skip item h, items_skip items⟩

theorem members_skip : (members : List (Key × Node)) → ∀ m ∈ members, ∀ other,
    m.2.Alike other → m.2.skip = .ok () ∧ other.skip = .ok ()
  | [] => List.forall_mem_nil _
  | (_, node) :: members =>
      List.forall_mem_cons.mpr ⟨fun _ h => Alike.skip node h, members_skip members⟩

end

end Node

end PodWebhook.Json

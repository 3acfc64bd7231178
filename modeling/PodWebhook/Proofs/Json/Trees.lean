import PodWebhook.Json.Node
import PodWebhook.Proofs.Json.Ordered
import PodWebhook.Proofs.Outcomes

/-!
Trees without a fault. `StandsFor` says that a tree holds exactly a value, wherever its parts may
stand in a text; the members of an object are in the order of the text. Such a tree can be read and
skipped, and reading it yields the value with its members sorted. From any other tree, too, nothing
comes that is not in order (`ordered_toJson`).
-/

namespace PodWebhook.Json.Node

mutual

inductive StandsFor : Node → Json → Prop where
  | null (stop : Nat) : StandsFor (.null stop) .null
  | bool (stop : Nat) (value : Bool) : StandsFor (.bool stop value) (.bool value)
  | number (start stop : Nat) (value : Number) :
      StandsFor (.number start stop value) (.number value)
  | text (start stop : Nat) (value : String) : StandsFor (.text start stop value) (.text value)
  | array (start opened stop : Nat) {nodes : List Node} {items : List Json}
      (h : ItemsStandFor nodes items) :
      StandsFor (.array start opened nodes (.closed stop)) (.array items)
  | object (start stop : Nat) {nodes : List (Key × Node)} {members : List (String × Json)}
      (h : MembersStandFor nodes members) :
      StandsFor (.object start nodes (.closed stop)) (.object members)

inductive ItemsStandFor : List Node → List Json → Prop where
  | nil : ItemsStandFor [] []
  | cons {node : Node} {item : Json} {nodes : List Node} {items : List Json}
      (head : StandsFor node item) (tail : ItemsStandFor nodes items) :
      ItemsStandFor (node :: nodes) (item :: items)

inductive MembersStandFor : List (Key × Node) → List (String × Json) → Prop where
  | nil : MembersStandFor [] []
  | cons {key : Key} {name : String} {node : Node} {value : Json} {nodes : List (Key × Node)}
      {members : List (String × Json)} (hn : key.name = .ok name) (hu : key.unskippable = none)
      (head : StandsFor node value) (tail : MembersStandFor nodes members) :
      MembersStandFor ((key, node) :: nodes) ((name, value) :: members)

end

theorem itemsStandFor_iff {nodes : List Node} {items : List Json} :
    ItemsStandFor nodes items ↔ List.Forall₂ StandsFor nodes items := by
  constructor
  · intro h
    induction items generalizing nodes with
    | nil =>
        cases h
        exact .nil
    | cons item items ih =>
        cases h with
        | cons head tail => exact .cons head (ih tail)
  · intro h
    induction h with
    | nil => exact .nil
    | cons head _ ih => exact .cons head ih

structure Named (holds : Node → Prop) (name : Option String) (m : Key × Node) : Prop where
  name : m.1.name.toOption = name
  unskippable : m.1.unskippable = none
  value : holds m.2

theorem membersStandFor_iff {nodes : List (Key × Node)} {members : List (String × Json)} :
    MembersStandFor nodes members ↔
      List.Forall₂ (fun n m => Named (·.StandsFor m.2) (some m.1) n) nodes members := by
  constructor
  · intro h
    induction members generalizing nodes with
    | nil =>
        cases h
        exact .nil
    | cons m members ih =>
        cases h with
        | cons hn hu head tail => exact .cons ⟨toOption_eq_some_iff.mpr hn, hu, head⟩ (ih tail)
  · intro h
    induction h with
    | nil => exact .nil
    | cons head _ ih =>
        exact .cons (toOption_eq_some_iff.mp head.name) head.unskippable head.value ih

def pair? {β : Type} (value? : Node → Option β) (m : Key × Node) : Option (String × β) :=
  m.1.name.toOption.bind fun name => (value? m.2).map (name, ·)

theorem itemsOfJson_eq (items : List Json) (nodes : List Node) :
    itemsOfJson items nodes = nodes.reverse ++ items.map ofJson := by
  induction items generalizing nodes with
  | nil => simp [itemsOfJson]
  | cons item items ih => simp [itemsOfJson, ih]

theorem membersOfJson_eq (members : List (String × Json)) (nodes : List (Key × Node)) :
    membersOfJson members nodes =
      nodes.reverse ++ members.map fun m => (keyOf m.1, ofJson m.2) := by
  induction members generalizing nodes with
  | nil => simp [membersOfJson]
  | cons m members ih => simp [membersOfJson, ih]

mutual

theorem standsFor_ofJson : (value : Json) → StandsFor (ofJson value) value
  | .null => .null 0
  | .bool value => .bool 0 value
  | .number value => .number 0 0 value
  | .text value => .text 0 0 value
  | .array items => by
      rw [ofJson, itemsOfJson_eq]
      exact .array 0 0 0 (itemsStandFor_map items)
  | .object members => by
      rw [ofJson, membersOfJson_eq]
      exact .object 0 0 (membersStandFor_map members)

theorem itemsStandFor_map : (items : List Json) → ItemsStandFor (items.map ofJson) items
  | [] => .nil
  | item :: items => .cons (standsFor_ofJson item) (itemsStandFor_map items)

theorem membersStandFor_map : (members : List (String × Json)) →
    MembersStandFor (members.map fun m => (keyOf m.1, ofJson m.2)) members
  | [] => .nil
  | (_, value) :: members => .cons rfl rfl (standsFor_ofJson value) (membersStandFor_map members)

end

mutual

theorem StandsFor.skip : (node : Node) → {value : Json} → StandsFor node value →
    node.skip = .ok ()
  | .array _ _ nodes _, _, h => by
      cases h with
      | array _ _ _ items => rw [Node.skip, items.skip]; rfl
  | .object _ nodes _, _, h => by
      cases h with
      | object _ _ members => rw [Node.skip, members.skip]; rfl
  | .null _, _, _ => rfl
  | .bool _ _, _, _ => rfl
  | .number _ _ _, _, _ => rfl
  | .text _ _ _, _, _ => rfl
  | .unreadable _ _, _, _ => rfl
  | .broken _ _ _, _, h => nomatch h

theorem ItemsStandFor.skip : (nodes : List Node) → {items : List Json} →
    ItemsStandFor nodes items → skipItems nodes = .ok ()
  | [], _, _ => rfl
  | node :: nodes, _, h => by
      cases h with
      | cons head tail => rw [skipItems, head.skip]; exact tail.skip

theorem MembersStandFor.skip : (nodes : List (Key × Node)) → {members : List (String × Json)} →
    MembersStandFor nodes members → skipMembers nodes = .ok ()
  | [], _, _ => rfl
  | (key, node) :: nodes, _, h => by
      cases h with
      | cons hn hu head tail => simp only [skipMembers, hu, head.skip]; exact tail.skip

end

mutual

theorem StandsFor.toJson : (node : Node) → {value : Json} → StandsFor node value →
    node.toJson = .ok value.sorted
  | .null _, _, h => by
      cases h
      rfl
  | .bool _ _, _, h => by
      cases h
      rw [Node.toJson, sorted.eq_def]
  | .number _ _ _, _, h => by
      cases h
      rw [Node.toJson, sorted.eq_def]
  | .text _ _ _, _, h => by
      cases h
      rw [Node.toJson, sorted.eq_def]
  | .array _ _ nodes _, _, h => by
      cases h with
      | array _ _ _ items => rw [Node.toJson, items.toJson, sorted]; rfl
  | .object _ nodes _, _, h => by
      cases h with
      | object _ _ members => rw [Node.toJson, members.toJson, sorted]; rfl
  | .unreadable _ _, _, h => nomatch h
  | .broken _ _ _, _, h => nomatch h

theorem ItemsStandFor.toJson : (nodes : List Node) → {items : List Json} →
    ItemsStandFor nodes items → ∀ values : List Json,
      itemsToJson nodes values = .ok (values.reverse ++ sortedItems items)
  | [], _, h, values => by
      cases h
      simp [itemsToJson, sortedItems]
  | node :: nodes, _, h, values => by
      cases h with
      | cons head tail =>
          rw [itemsToJson, head.toJson]
          simp [tail.toJson, sortedItems]

theorem MembersStandFor.toJson : (nodes : List (Key × Node)) → {members : List (String × Json)} →
    MembersStandFor nodes members → ∀ values : List (String × Json),
      membersToJson nodes values = .ok (values.reverse ++ sortedMembers members)
  | [], _, h, values => by
      cases h
      simp [membersToJson, sortedMembers]
  | (key, node) :: nodes, _, h, values => by
      cases h with
      | cons hn hu head tail =>
          simp only [membersToJson, hn, head.toJson]
          simp [tail.toJson, sortedMembers]

end

mutual

theorem ordered_toJson : (node : Node) → ∀ {value : Json}, node.toJson = .ok value → value.Ordered
  | .null _, _, h => by cases h; trivial
  | .bool _ _, _, h => by cases h; trivial
  | .number _ _ _, _, h => by cases h; trivial
  | .text _ _ _, _, h => by cases h; trivial
  | .unreadable _ _, _, h => nomatch h
  | .broken _ _ _, _, h => nomatch h
  | .array _ _ items ending, _, h => by
      rw [toJson] at h
      split at h
      · cases h
      · next values read =>
        split at h <;> cases h
        exact orderedItems_iff.mpr (ordered_itemsToJson items (by simp) read)
  | .object _ members ending, _, h => by
      rw [toJson] at h
      split at h
      · cases h
      · next values read =>
        split at h <;> cases h
        exact ordered_ofMembers (ordered_membersToJson members (by simp) read)

theorem ordered_itemsToJson : (nodes : List Node) → ∀ {done values : List Json},
    (∀ value ∈ done, value.Ordered) → itemsToJson nodes done = .ok values →
    ∀ value ∈ values, value.Ordered
  | [], done, _, known, h => by
      cases h
      simpa using known
  | node :: nodes, done, _, known, h => by
      rw [itemsToJson] at h
      split at h
      · next value read =>
        have first := ordered_toJson node read
        exact ordered_itemsToJson nodes (List.forall_mem_cons.mpr ⟨first, known⟩) h
      · cases h

theorem ordered_membersToJson : (nodes : List (Key × Node)) →
    ∀ {done values : List (String × Json)}, (∀ m ∈ done, m.2.Ordered) →
    membersToJson nodes done = .ok values → ∀ m ∈ values, m.2.Ordered
  | [], done, _, known, h => by
      cases h
      simpa using known
  | (key, node) :: nodes, done, _, known, h => by
      rw [membersToJson] at h
      split at h
      · cases h
      · split at h
        · next value read =>
          have first := ordered_toJson node read
          exact ordered_membersToJson nodes (List.forall_mem_cons.mpr ⟨first, known⟩) h
        · cases h

end

end PodWebhook.Json.Node

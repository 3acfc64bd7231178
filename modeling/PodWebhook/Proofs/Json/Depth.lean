import PodWebhook.Json.Document
import PodWebhook.Proofs.Json.Likeness
import PodWebhook.Proofs.Json.Spelling

/-!
How deep the tree of a text is nested. Whatever the text is, its tree has brackets within brackets
up to the depth at which they are still followed, and so has the value of any part of it.
-/

namespace PodWebhook.Json

namespace Node

def parts : Node → List Node
  | .array _ _ items _ => items
  | .object _ members _ => members.map (·.2)
  | _ => []

def hasBrackets : Node → Bool
  | .array .. | .object .. => true
  | _ => false

inductive Within : Nat → Node → Prop where
  | leaf {depth : Nat} {node : Node} (h : node.hasBrackets = false) : Within depth node
  | inside {depth : Nat} {node : Node} (h : ∀ part ∈ node.parts, Within depth part) :
      Within (depth + 1) node

theorem Within.part {depth : Nat} {node part : Node} (h : Within depth node)
    (hp : part ∈ node.parts) : Within (depth - 1) part := by
  cases h with
  | leaf flat =>
      cases node with
      | array | object => cases flat
      | null | bool | number | text | unreadable | broken => exact absurd hp List.not_mem_nil
  | inside each => exact each part hp

theorem Within.depth_toJson {depth : Nat} {node : Node} (h : Within depth node) {value : Json}
    (read : node.toJson = .ok value) : value.depth ≤ depth := by
  induction h generalizing value with
  | @leaf depth node flat =>
      cases node with
      | null | bool | number | text =>
          cases read
          exact Nat.zero_le depth
      | array | object => cases flat
      | unreadable | broken => cases read
  | @inside depth node _ ih =>
      cases node with
      | null | bool | number | text =>
          cases read
          exact Nat.zero_le (depth + 1)
      | unreadable | broken => cases read
      | array start opened items ending =>
          cases ending with
          | closed stop =>
              have items := (toJson_array start opened stop items).symm.trans
                (toOption_eq_some_iff.mpr read)
              obtain ⟨values, collected, rfl⟩ := Option.map_eq_some_iff.mp items
              refine Nat.succ_le_succ (depthItems_le fun item member => ?_)
              obtain ⟨part, hp, found⟩ :=
                exists_of_forall₂_right (mapM_eq_some_iff.mp collected) member
              exact ih part hp (toOption_eq_some_iff.mp found)
          | broken =>
              rw [toJson] at read
              split at read <;> cases read
      | object start members ending =>
          cases ending with
          | closed stop =>
              have members := (toJson_object start stop members).symm.trans
                (toOption_eq_some_iff.mpr read)
              obtain ⟨entries, made, rfl⟩ := Option.map_eq_some_iff.mp members
              obtain ⟨pairs, collected, rfl⟩ := Option.map_eq_some_iff.mp made
              refine Nat.succ_le_succ (depthMembers_le fun entry member => ?_)
              obtain ⟨m, hm, found⟩ := exists_of_forall₂_right (mapM_eq_some_iff.mp collected)
                (Keyed.mem_of_mem_ofList member)
              obtain ⟨name, _, made⟩ := Option.bind_eq_some_iff.mp found
              obtain ⟨value, read, rfl⟩ := Option.map_eq_some_iff.mp made
              exact ih m.2 (List.mem_map_of_mem hm) (toOption_eq_some_iff.mp read)
          | broken =>
              rw [toJson] at read
              split at read <;> cases read

end Node

namespace Parsed

open Node (Within)

variable {depth : Nat}

theorem within_unreadable (start : Nat) (fault : Fault) (skipped : Except Fault (Bytes × Nat)) :
    Within depth (unreadable start fault skipped).node := by
  cases skipped <;> exact .leaf rfl

theorem within_ofText (rest : Bytes) (pos : Nat) : Within depth (ofText rest pos).node := by
  rw [ofText]
  split
  · exact .leaf rfl
  · exact within_unreadable _ _ _

theorem within_ofNumber (bytes : Bytes) (pos : Nat) : Within depth (ofNumber bytes pos).node := by
  rw [ofNumber]
  split
  · exact .leaf rfl
  · exact within_unreadable _ _ _

theorem within_ofWord (word : Word) (letters rest : Bytes) (pos : Nat) :
    Within depth (ofWord word letters rest pos).node := by
  rw [ofWord]
  split
  · exact .leaf rfl
  · cases word <;> exact .leaf rfl

theorem within_ofValue {array object : Bytes → Nat → Parsed}
    (list : ∀ rest pos, Within depth (array rest pos).node)
    (map : ∀ rest pos, Within depth (object rest pos).node) (bytes : Bytes) (pos : Nat) :
    Within depth (ofValue array object bytes pos).node := by
  rw [ofValue]
  split
  · exact .leaf rfl
  · split
    · exact list _ _
    · split
      · exact map _ _
      · split
        · exact within_ofText _ _
        · split
          · exact within_ofNumber _ _
          · split
            · exact within_ofWord _ _ _ _
            · exact .leaf rfl

theorem forall_mem_stopped {α : Type} {holds : α → Prop} {contents : List α}
    (known : ∀ x ∈ contents, holds x) (reading skipping closing : Fault) :
    ∀ x ∈ (Block.stopped contents reading skipping closing).contents, holds x := by
  simpa [Block.stopped] using known

section Blocks

variable {parse : Bytes → Nat → Parsed} (each : ∀ bytes pos, Within depth (parse bytes pos).node)

include each

theorem within_itemsOf (fuel : Nat) (first : Bool) (bytes : Bytes) (pos : Nat) {items : List Node}
    (known : ∀ item ∈ items, Within depth item) :
    ∀ item ∈ (itemsOf parse fuel first bytes pos items).contents, Within depth item := by
  induction fuel generalizing first bytes pos items with
  | zero => exact forall_mem_stopped known _ _ _
  | succ fuel ih =>
      -- the walk stops with the items it has or with one more, or it goes on with one more
      have longer := fun bytes pos => List.forall_mem_cons.mpr ⟨each bytes pos, known⟩
      simp only [itemsOf]
      repeat' split
      all_goals first
        | exact forall_mem_stopped known _ _ _
        | exact forall_mem_stopped (longer _ _) _ _ _
        | exact ih _ _ _ (longer _ _)
        | simpa using known

theorem within_memberValue (bytes : Bytes) (pos : Nat) :
    Within depth (memberValue parse bytes pos).node := by
  rw [memberValue]
  split
  · exact each _ _
  · exact .leaf rfl

theorem within_membersOf (fuel : Nat) (first : Bool) (bytes : Bytes) (pos : Nat)
    {members : List (Key × Node)} (known : ∀ m ∈ members, Within depth m.2) :
    ∀ m ∈ (membersOf parse fuel first bytes pos members).contents, Within depth m.2 := by
  induction fuel generalizing first bytes pos members with
  | zero => exact forall_mem_stopped known _ _ _
  | succ fuel ih =>
      have cut : ∀ (key : Key) (pos : Nat) (fault : Fault),
          ∀ m ∈ (key, Node.broken pos fault fault) :: members, Within depth m.2 :=
        fun key pos fault => List.forall_mem_cons.mpr ⟨.leaf rfl, known⟩
      have longer : ∀ (key : Key) (bytes : Bytes) (pos : Nat),
          ∀ m ∈ (key, (memberValue parse bytes pos).node) :: members, Within depth m.2 :=
        fun key bytes pos =>
          List.forall_mem_cons.mpr ⟨within_memberValue each bytes pos, known⟩
      simp only [membersOf]
      repeat' split
      all_goals first
        | exact forall_mem_stopped known _ _ _
        | exact forall_mem_stopped (cut _ _ _) _ _ _
        | exact forall_mem_stopped (longer _ _ _) _ _ _
        | exact ih _ _ _ (longer _ _ _)
        | simpa using known

end Blocks

theorem within_atDepth (limit depth : Nat) (bytes : Bytes) (pos : Nat) :
    Within depth (atDepth limit depth bytes pos).node := by
  induction depth generalizing bytes pos with
  | zero =>
      refine within_ofValue (fun rest pos => ?_) (fun rest pos => ?_) bytes pos <;>
        exact within_unreadable _ _ _
  | succ depth ih =>
      refine within_ofValue (fun rest pos => ?_) (fun rest pos => ?_) bytes pos
      · exact .inside (within_itemsOf ih limit true rest (pos + 1) (List.forall_mem_nil _))
      · refine .inside (List.forall_mem_map.mpr ?_)
        exact within_membersOf ih limit true rest (pos + 1) (List.forall_mem_nil _)

end Parsed

theorem Document.within_root (bytes : Bytes) : (ofBytes bytes).root.Within maxDepth :=
  Parsed.within_atDepth (bytes.length + 1) maxDepth bytes 0

end PodWebhook.Json

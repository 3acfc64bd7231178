import Mathlib.Logic.Relation
import PodWebhook.Proofs.Json.Layout
import PodWebhook.Proofs.Schema.Steady
import PodWebhook.Proofs.Schema.Typing

/-!
Null where a member may be missing. To a field that may be left out a member that is null says the
same as none, wherever the member stands in its record and however deep the record lies.
-/

namespace PodWebhook.Schema

open Json (Term Node Key textOf?)
open Json.Term (tree keyOf)
open Json.Node (names)

/-- The second term has one member more than the first, in a record of the shape: a null for a field
that may be left out, and that the first term leaves out. -/
inductive Nulled : Shape → Term → Term → Prop where
  | here {kind : RecordKind} {name : String} {fields : List (String × Presence × Shape)}
      {field : String} {shape : Shape} (known : (field, .optional, shape) ∈ fields)
      {key : List UInt16} (named : textOf? key = some field)
      {front back : List (List UInt16 × Term)}
      (missing : ∀ m ∈ front ++ back, textOf? m.1 ≠ some field) :
      Nulled (.record kind name fields) (.object (front ++ back))
        (.object (front ++ (key, .null) :: back))
  | member {kind : RecordKind} {name : String} {fields : List (String × Presence × Shape)}
      {field : String} {presence : Presence} {shape : Shape}
      (known : (field, presence, shape) ∈ fields) {key : List UInt16}
      (named : textOf? key = some field) {term other : Term} (inside : Nulled shape term other)
      (front back : List (List UInt16 × Term)) :
      Nulled (.record kind name fields) (.object (front ++ (key, term) :: back))
        (.object (front ++ (key, other) :: back))
  | item {name : String} {fields : List (String × Presence × Shape)} {field : String}
      {presence : Presence} {shape : Shape} {front : List Term}
      (known : fields[front.length]? = some (field, presence, shape)) {term other : Term}
      (inside : Nulled shape term other) (back : List Term) :
      Nulled (.record .plain name fields) (.array (front ++ term :: back))
        (.array (front ++ other :: back))

section Records

variable {kind : RecordKind} {fields : List Field} {field : Field}

section Seen

variable {name : String} {before after : Seen} (fresh : Keyed.get? name (after ++ before) = none)

include fresh

theorem unrepeated_insert (datum : Option Datum) :
    Unrepeated kind (after ++ (name, datum) :: before) ↔ Unrepeated kind (after ++ before) := by
  have order : (after ++ (name, datum) :: before).Perm ((name, datum) :: (after ++ before)) :=
    List.perm_middle
  have moved : Unrepeated kind (after ++ (name, datum) :: before) ↔
      Unrepeated kind ((name, datum) :: (after ++ before)) :=
    imp_congr_right fun _ => (order.map _).nodup_iff
  rw [moved]
  refine ⟨fun h => @Unrepeated.of_append _ _ [(name, datum)] h, fun h => ?_⟩
  exact (unrepeated_cons_iff h name datum).mpr (by simp [fresh])

theorem get?_insert_self (datum : Option Datum) :
    Keyed.get? name (after ++ (name, datum) :: before) = some datum := by
  rw [Keyed.get?_append, Option.or_eq_none_iff] at fresh
  rw [Keyed.get?_append, fresh.1, Keyed.get?, if_pos rfl, Option.none_or]

end Seen

theorem recordOf?_null (hf : field ∈ fields) (distinct : (fields.map Field.name).Nodup)
    (optional : field.presence = .optional) {front back : List (Option (String × Option Datum))}
    (missing : field.name ∉ (front ++ back).reduceOption.map (·.1)) :
    recordOf? kind fields (front ++ back) =
      recordOf? kind fields (front ++ some (field.name, none) :: back) := by
  let before := front.reduceOption.reverse
  let after := back.reduceOption.reverse
  have without : (front ++ back).reduceOption.reverse = after ++ before := by
    rw [List.reduceOption_append, List.reverse_append]
  have along : (front ++ some (field.name, none) :: back).reduceOption.reverse =
      after ++ (field.name, none) :: before := by
    rw [List.reduceOption_append, List.reduceOption_cons_of_some, List.reverse_append,
      List.reverse_cons, List.append_assoc]
    rfl
  have fresh : Keyed.get? field.name (after ++ before) = none := by
    rw [← Option.not_isSome_iff_eq_none, Keyed.isSome_get?_iff, ← without, List.map_reverse,
      List.mem_reverse]
    exact missing
  have look : ∀ f ∈ fields, f.settled? (Keyed.get? f.name (after ++ before)) =
      f.settled? (Keyed.get? f.name (after ++ (field.name, none) :: before)) := by
    intro f hf'
    by_cases own : field.name = f.name
    · obtain rfl := List.inj_on_of_nodup_map distinct hf hf' own
      rw [fresh, get?_insert_self fresh]
      simp only [Field.settled?, optional]
    · rw [Keyed.get?_append, Keyed.get?_append, Keyed.get?, if_neg own]
  simp only [recordOf?, without, along, unrepeated_insert fresh, assemble_congr look]

theorem met?_known (hf : field ∈ fields) (distinct : (fields.map Field.name).Nodup) {key : Key}
    (named : key.name.toOption = some field.name) (node : Node) :
    met? fields (key, node) =
      (field.readMember key node).toOption.map fun datum => some (field.name, datum) := by
  rw [met?, named, Option.bind_some, find?_name distinct hf]

theorem readRecord_null (hf : field ∈ fields) (distinct : (fields.map Field.name).Nodup)
    (optional : field.presence = .optional) {key : Key}
    (named : key.name.toOption = some field.name) {front back : List (Key × Node)}
    (missing : field.name ∉ names (front ++ back)) (name : String) (start stop place : Nat) :
    (readRecord kind name fields (.object start (front ++ back) (.closed stop))).toOption =
      (readRecord kind name fields
        (.object start (front ++ (key, .null place) :: back) (.closed stop))).toOption := by
  have null : met? fields (key, .null place) = some (some (field.name, none)) := by
    rw [met?_known hf distinct named, Field.readMember, optional]
    rfl
  rw [readRecord_members, readRecord_members, List.mapM_append, List.mapM_append, List.mapM_cons,
    null]
  cases first : front.mapM (met? fields) with
  | none => rfl
  | some before =>
      cases last : back.mapM (met? fields) with
      | none => rfl
      | some after =>
          have whole : (front ++ back).mapM (met? fields) = some (before ++ after) := by
            rw [List.mapM_append, first, last]
            rfl
          exact recordOf?_null hf distinct optional fun met =>
            missing ((names_of_met whole).subset met)

/-- Members under one name that are read the same are exchanged without a difference. -/
theorem readRecord_member (hf : field ∈ fields) (distinct : (fields.map Field.name).Nodup)
    {key : Key} (named : key.name.toOption = some field.name) {node other : Node}
    (same : (field.readMember key node).toOption = (field.readMember key other).toOption)
    (front back : List (Key × Node)) (name : String) (start stop : Nat) :
    (readRecord kind name fields
        (.object start (front ++ (key, node) :: back) (.closed stop))).toOption =
      (readRecord kind name fields
        (.object start (front ++ (key, other) :: back) (.closed stop))).toOption := by
  have met : met? fields (key, node) = met? fields (key, other) := by
    rw [met?_known hf distinct named, met?_known hf distinct named, same]
  rw [readRecord_members, readRecord_members, List.mapM_append, List.mapM_append, List.mapM_cons,
    List.mapM_cons, met]

theorem placed?_item (title : String) (stop index : Nat) {front : List Node}
    (hf : fields[front.length]? = some field) {node other : Node}
    (same : (readPresent field.presence field.read node).toOption =
      (readPresent field.presence field.read other).toOption) (back : List Node) :
    placed? title stop index fields (front ++ node :: back) =
      placed? title stop index fields (front ++ other :: back) := by
  induction front generalizing fields index with
  | nil =>
      cases fields with
      | nil => cases hf
      | cons first fields =>
          obtain rfl := Option.some.inj hf
          rw [List.nil_append, List.nil_append, placed?_cons, placed?_cons, same]
  | cons head front ih =>
      cases fields with
      | nil => cases hf
      | cons first fields =>
          rw [List.cons_append, List.cons_append, placed?_cons, placed?_cons, ih (index + 1) hf]

end Records

theorem readPresent_of_ne_null (presence : Presence) (read : Node → Result Datum) {node : Node}
    (h : ∀ stop, node ≠ .null stop) :
    readPresent presence read node = (read node).map some := by
  unfold readPresent
  split
  · exact absurd rfl (h _)
  · exact absurd rfl (h _)
  · rfl

namespace Nulled

variable {shape : Shape} {term other : Term}

theorem readPresent (h : Nulled shape term other) {depth : Nat}
    (same : (shape.read (term.tree depth)).toOption = (shape.read (other.tree depth)).toOption)
    (presence : Presence) :
    (readPresent presence shape.read (term.tree depth)).toOption =
      (readPresent presence shape.read (other.tree depth)).toOption := by
  have notNull : ∀ stop, term.tree depth ≠ .null stop ∧ other.tree depth ≠ .null stop := by
    intro stop
    cases h <;> cases depth <;> exact ⟨nofun, nofun⟩
  rw [readPresent_of_ne_null _ _ fun stop => (notNull stop).1,
    readPresent_of_ne_null _ _ fun stop => (notNull stop).2, toOption_map, toOption_map, same]

theorem read (h : Nulled shape term other) (reversible : shape.reversible = true)
    (distinct : shape.distinct = true) (depth : Nat) :
    (shape.read (term.tree depth)).toOption = (shape.read (other.tree depth)).toOption := by
  induction h generalizing depth with
  | @here kind name fields field shape known key named front back missing =>
      have hf := Shape.mem_fieldsOf_of_mem known
      have nodup := Shape.nodup_fieldsOf distinct
      cases depth with
      | zero => rfl
      | succ depth =>
          simp only [tree, Shape.read, List.map_append, List.map_cons]
          refine readRecord_null hf nodup rfl ((Term.name_keyOf key).trans named) ?_ name 0 0 0
          rw [← List.map_append, Term.names_tree, List.mem_filterMap]
          rintro ⟨units, mem, same⟩
          obtain ⟨m, hm, rfl⟩ := List.mem_map.mp mem
          exact missing m hm same
  | @member kind name fields field presence shape known key named term other inside front back
      ih =>
      have hf := Shape.mem_fieldsOf_of_mem known
      have nodup := Shape.nodup_fieldsOf distinct
      obtain ⟨own, reversibleField⟩ := Shape.reversible_of_mem reversible _ known
      have distinctField := Shape.distinct_of_mem distinct known
      cases depth with
      | zero => rfl
      | succ depth =>
          have same := inside.readPresent (ih reversibleField distinctField depth) presence
          simp only [tree, Shape.read, List.map_append, List.map_cons]
          refine readRecord_member hf nodup ((Term.name_keyOf key).trans named) ?_ _ _ name 0 0
          rw [Field.readMember_of_reversible own, Field.readMember_of_reversible own]
          exact same
  | @item name fields field presence shape front known term other inside back ih =>
      have hf : (Shape.fieldsOf fields)[front.length]? =
          some ⟨field, presence, shape, shape.read⟩ := by
        rw [Shape.fieldsOf_eq_map, List.getElem?_map, known]
        rfl
      have mem := List.mem_of_getElem? known
      have reversibleField := (Shape.reversible_of_mem reversible _ mem).2
      have distinctField := Shape.distinct_of_mem distinct mem
      cases depth with
      | zero => rfl
      | succ depth =>
          have same := inside.readPresent (ih reversibleField distinctField depth) presence
          rw [← List.length_map (tree depth)] at hf
          simp only [tree, Shape.read, List.map_append, List.map_cons]
          rw [readRecord_plain_array, readRecord_plain_array, placed?_item _ 0 0 hf same]

theorem read_of_eqvGen (h : Relation.EqvGen (Nulled shape) term other)
    (reversible : shape.reversible = true) (distinct : shape.distinct = true) (depth : Nat) :
    (shape.read (term.tree depth)).toOption = (shape.read (other.tree depth)).toOption := by
  induction h with
  | rel _ _ nulled => exact nulled.read reversible distinct depth
  | refl => rfl
  | symm _ _ _ ih => exact ih.symm
  | trans _ _ _ _ _ first second => exact first.trans second

end Nulled

end PodWebhook.Schema

import PodWebhook.Proofs.Json.Depth
import PodWebhook.Proofs.Schema.Members

/-!
Records field by field, as they are read from any tree, also from one that cannot be read in full.
What a field comes to is read from a part of the tree or is there without one; so what holds of each
field either way holds of the fields of the record (`assembled_readRecord`).
-/

namespace PodWebhook.Schema

open Json (Node Key)

/-- A field that is left out where it has no value, and is null for no other reason. -/
def Presence.reversible : Presence → Bool
  | .required | .optional | .filled => true
  | .defaulted | .fixed _ => false

variable {holds : Field → Option Datum → Prop}

structure Field.Yields (holds : Field → Option Datum → Prop) (nodes : List Node) (field : Field) :
    Prop where
  reversible : field.presence.reversible = true
  read : ∀ node ∈ nodes, ∀ datum, readPresent field.presence field.read node = .ok datum →
    holds field datum
  missing : ∀ datum, field.settled? none = some datum → holds field datum

theorem Field.Yields.tail {node : Node} {nodes : List Node} {field : Field}
    (h : field.Yields holds (node :: nodes)) : field.Yields holds nodes :=
  ⟨h.reversible, fun other ho => h.read other (List.mem_cons_of_mem node ho), h.missing⟩

/-- Data with a part from each field, in the order of the fields, that holds of the field. -/
inductive Assembled (holds : Field → Option Datum → Prop) : List Field → Fields → Prop where
  | nil : Assembled holds [] []
  | cons {field : Field} {datum : Option Datum} {fields : List Field} {rest : Fields}
      (head : holds field datum) (tail : Assembled holds fields rest) :
      Assembled holds (field :: fields) (Fields.maybe field.name datum ++ rest)

theorem Assembled.names {fields : List Field} {data : Fields} (h : Assembled holds fields data) :
    (data.map (·.1)).Sublist (fields.map Field.name) := by
  induction h with
  | nil => exact .slnil
  | @cons field datum fields rest head tail ih =>
      cases datum with
      | none => exact ih.cons _
      | some d => exact ih.cons_cons _

theorem Assembled.get? {fields : List Field} {data : Fields} (h : Assembled holds fields data)
    (distinct : (fields.map Field.name).Nodup) {field : Field} (hf : field ∈ fields) :
    holds field (Keyed.get? field.name data) := by
  induction h with
  | nil => simp at hf
  | @cons first datum fields rest head tail ih =>
      rw [List.map_cons, List.nodup_cons] at distinct
      rcases List.mem_cons.mp hf with rfl | hmem
      · rw [get?_maybe_append_self fun later => distinct.1 (tail.names.subset later)]
        exact head
      · have ne : first.name ≠ field.name := fun same =>
          distinct.1 (same ▸ List.mem_map_of_mem hmem)
        rw [get?_maybe_append_of_ne ne]
        exact ih distinct.2 hmem

theorem assembled_assemble {value? : Field → Option (Option Datum)} {fields : List Field}
    {data : Fields} (h : assemble value? fields = some data)
    (known : ∀ f ∈ fields, ∀ datum, value? f = some datum → holds f datum) :
    Assembled holds fields data := by
  induction fields generalizing data with
  | nil =>
      cases h
      exact .nil
  | cons field fields ih =>
      obtain ⟨datum, rest, first, others, rfl⟩ := assemble_cons h
      exact .cons (known field List.mem_cons_self datum first)
        (ih others fun f hf => known f (List.mem_cons_of_mem field hf))

def SeenHolds (holds : Field → Option Datum → Prop) (fields : List Field) (seen : Seen) : Prop :=
  ∀ field ∈ fields, ∀ datum, Keyed.get? field.name seen = some datum → holds field datum

theorem SeenHolds.cons {fields : List Field} (distinct : (fields.map Field.name).Nodup)
    {field : Field} (mem : field ∈ fields) {datum : Option Datum} (own : holds field datum)
    {seen : Seen} (h : SeenHolds holds fields seen) :
    SeenHolds holds fields ((field.name, datum) :: seen) := by
  intro f hf d found
  by_cases same : field.name = f.name
  · obtain rfl := List.inj_on_of_nodup_map distinct mem hf same
    rw [Keyed.get?, if_pos rfl] at found
    obtain rfl := Option.some.inj found
    exact own
  · rw [Keyed.get?, if_neg same] at found
    exact h f hf d found

theorem Field.readMember_of_reversible {field : Field}
    (reversible : field.presence.reversible = true) (key : Key) (node : Node) :
    field.readMember key node = readPresent field.presence field.read node := by
  rw [Field.readMember]
  split
  · next text fixed =>
    rw [fixed] at reversible
    cases reversible
  · rfl

theorem seenHolds_readMembers {kind : RecordKind} {fields : List Field}
    (distinct : (fields.map Field.name).Nodup) (nodes : List (Key × Node))
    (yields : ∀ f ∈ fields, f.Yields holds (nodes.map (·.2))) {seen last : Seen}
    (known : SeenHolds holds fields seen) (h : readMembers kind fields nodes seen = .ok last) :
    SeenHolds holds fields last := by
  induction nodes generalizing seen with
  | nil =>
      cases h
      exact known
  | cons node nodes ih =>
      obtain ⟨key, node⟩ := node
      have later : ∀ f ∈ fields, f.Yields holds (nodes.map (·.2)) := fun f hf =>
        (yields f hf).tail
      rw [readMembers] at h
      split at h
      · cases h
      · next name named =>
        cases found : fields.find? fun f => f.name == name with
        | none =>
            simp only [found] at h
            split at h
            · exact ih later known h
            · cases h
        | some field =>
            have mem := List.mem_of_find?_eq_some found
            obtain rfl : field.name = name := by simpa using List.find?_some found
            simp only [found] at h
            split at h
            · cases h
            · split at h
              · next datum read =>
                rw [Field.readMember_of_reversible (yields field mem).reversible] at read
                have own := (yields field mem).read node List.mem_cons_self datum read
                exact ih later (known.cons distinct mem own) h
              · cases h

theorem Field.settled?_of_reversible {field : Field}
    (reversible : field.presence.reversible = true) (datum : Option Datum) :
    field.settled? (some datum) = some datum := by
  obtain ⟨name, presence, shape, read⟩ := field
  cases presence with
  | required | optional | filled => cases datum <;> rfl
  | defaulted | fixed => cases reversible

theorem holds_settled? {field : Field} {nodes : List Node} (yields : field.Yields holds nodes)
    {state : Option (Option Datum)} (known : ∀ datum, state = some datum → holds field datum)
    {datum : Option Datum} (h : field.settled? state = some datum) : holds field datum := by
  cases state with
  | none => exact yields.missing datum h
  | some found =>
      rw [Field.settled?_of_reversible yields.reversible] at h
      exact Option.some.inj h ▸ known found rfl

theorem assembled_readPositions {title : String} {ending : Json.Ending} {fields : List Field}
    {index : Nat} {nodes left : List Node} (yields : ∀ f ∈ fields, f.Yields holds nodes)
    {data : Fields} (h : readPositions title ending index fields nodes = .ok (data, left)) :
    Assembled holds fields data := by
  induction fields generalizing index nodes left data with
  | nil =>
      rw [readPositions.eq_def] at h
      cases h
      exact .nil
  | cons field fields ih =>
      rw [List.forall_mem_cons] at yields
      cases nodes with
      | nil =>
          rw [readPositions] at h
          obtain ⟨stop, _, h⟩ := bind_eq_ok_iff.mp h
          split at h
          · next filled =>
            obtain ⟨⟨rest, left⟩, others, h⟩ := bind_eq_ok_iff.mp h
            cases h
            have default := yields.1.missing (some field.shape.default)
              (by simp [Field.settled?, filled])
            exact .cons default (ih yields.2 others)
          · cases h
      | cons node nodes =>
          rw [readPositions] at h
          obtain ⟨datum, first, h⟩ := bind_eq_ok_iff.mp h
          obtain ⟨⟨rest, left⟩, others, h⟩ := bind_eq_ok_iff.mp h
          have own := yields.1.read node List.mem_cons_self datum first
          have tail := ih (fun f hf => (yields.2 f hf).tail) others
          cases datum <;> cases h <;> exact .cons own tail

/-- What holds of each field on its own holds of the fields of a record that has been read, be it an
object or a list. -/
theorem assembled_readRecord {kind : RecordKind} {name : String} {fields : List Field}
    (distinct : (fields.map Field.name).Nodup) {node : Node} {datum : Datum}
    (yields : ∀ f ∈ fields, f.Yields holds node.parts)
    (h : readRecord kind name fields node = .ok datum) :
    ∃ data, datum = .record data ∧ Assembled holds fields data := by
  rw [readRecord.eq_def] at h
  split at h
  · next members _ =>
    obtain ⟨seen, read, h⟩ := bind_eq_ok_iff.mp h
    obtain ⟨stop, _, h⟩ := bind_eq_ok_iff.mp h
    obtain ⟨data, settled, h⟩ := bind_eq_ok_iff.mp h
    cases h
    have known := seenHolds_readMembers distinct members yields (fun _ _ _ found => by cases found)
      read
    have assembled := settleFields_toOption seen stop fields
    rw [settled] at assembled
    exact ⟨data, rfl, assembled_assemble assembled.symm fun f hf datum found =>
      holds_settled? (yields f hf) (known f hf) found⟩
  · split at h
    · cases h
    · obtain ⟨⟨data, left⟩, read, h⟩ := bind_eq_ok_iff.mp h
      obtain ⟨_, _, h⟩ := bind_eq_ok_iff.mp h
      cases h
      exact ⟨data, rfl, assembled_readPositions yields read⟩
  · cases h

theorem parts_of_readRecord {kind : RecordKind} {name : String} {fields : List Field}
    (distinct : (fields.map Field.name).Nodup)
    (reversible : ∀ f ∈ fields, f.presence.reversible = true) {node : Node} {datum : Datum}
    (h : readRecord kind name fields node = .ok datum) :
    ∃ data, datum = .record data ∧ ∀ f ∈ fields,
      f.settled? none = some (Keyed.get? f.name data) ∨ ∃ part ∈ node.parts,
        readPresent f.presence f.read part = .ok (Keyed.get? f.name data) := by
  obtain ⟨data, rfl, assembled⟩ := @assembled_readRecord (fun f datum =>
    f.settled? none = some datum ∨ ∃ part ∈ node.parts,
      readPresent f.presence f.read part = .ok datum) kind name fields distinct node datum
    (fun f hf => ⟨reversible f hf, fun part hp _ read => .inr ⟨part, hp, read⟩, fun _ => .inl⟩) h
  exact ⟨data, rfl, fun f hf => assembled.get? distinct hf⟩

end PodWebhook.Schema

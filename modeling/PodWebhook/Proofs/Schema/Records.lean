import Mathlib.Data.List.Nodup
import PodWebhook.Proofs.Json.Trees
import PodWebhook.Schema.Reader

/-!
What a record is made of. Each field of a record depends on the members of its own name only, and
the record is there when all its fields are. Offsets and the order of other members play no part.
-/

namespace PodWebhook.Schema

open Json (Node Key)
open Json.Node (StandsFor ItemsStandFor MembersStandFor)

def occurrences (key : String) (members : List (String × Json)) : List Json :=
  (members.filter fun m => m.1 == key).map Prod.snd

theorem occurrences_cons_self (key : String) (value : Json) (members : List (String × Json)) :
    occurrences key ((key, value) :: members) = value :: occurrences key members := by
  simp [occurrences]

theorem occurrences_cons_of_ne {key name : String} (h : key ≠ name) (value : Json)
    (members : List (String × Json)) :
    occurrences key ((name, value) :: members) = occurrences key members := by
  simp [occurrences, Ne.symm h]

/-- A reader that minds what a tree stands for, not where its parts stand. -/
def Faithful (read : Node → Result Datum) : Prop :=
  ∀ (node : Node) (value : Json), node.StandsFor value →
    (read node).toOption = (read (Node.ofJson value)).toOption

def Presence.admitsNull : Presence → Bool
  | .optional | .defaulted => true
  | _ => false

namespace Field

def datum? (field : Field) (value : Json) : Option Datum :=
  (field.read (Node.ofJson value)).toOption

def present? (field : Field) (value : Json) : Option (Option Datum) :=
  if field.presence.admitsNull ∧ value = .null then some none
  else (field.datum? value).map some

def member? (field : Field) (value : Json) : Option (Option Datum) :=
  match field.presence with
  | .fixed text => if value = .text text then some none else none
  | _ => field.present? value

def next? (kind : RecordKind) (field : Field) (state : Option (Option Datum)) (value : Json) :
    Option (Option (Option Datum)) :=
  if kind = .plain ∧ state.isSome then none else (field.member? value).map some

def settled? (field : Field) (state : Option (Option Datum)) : Option (Option Datum) :=
  match field.presence, state with
  | .fixed text, _ => some (some (.text text))
  | .required, none => none
  | .optional, none => some none
  | _, none => some (some field.shape.default)
  | _, some (some datum) => some (some datum)
  | .defaulted, some none => some (some field.shape.default)
  | _, some none => some none

def seen? (kind : RecordKind) (members : List (String × Json)) (seen : Seen) (field : Field) :
    Option (Option (Option Datum)) :=
  (occurrences field.name members).foldlM (field.next? kind) (Keyed.get? field.name seen)

/-- The datum that the members of an object give to a field. -/
def gathered? (kind : RecordKind) (members : List (String × Json)) (field : Field) :
    Option (Option Datum) :=
  ((occurrences field.name members).foldlM (field.next? kind) none).bind field.settled?

theorem gathered?_eq (kind : RecordKind) (members : List (String × Json)) (field : Field) :
    field.gathered? kind members = (field.seen? kind members []).bind field.settled? := rfl

theorem readPresent_toOption {field : Field} (faithful : Faithful field.read) {node : Node}
    {value : Json} (h : node.StandsFor value) :
    (readPresent field.presence field.read node).toOption = field.present? value := by
  have same := faithful node value h
  by_cases null : field.presence.admitsNull = true ∧ value = .null
  · obtain ⟨admits, rfl⟩ := null
    cases h
    rw [present?, if_pos ⟨admits, rfl⟩]
    cases presence : field.presence <;> simp_all [Presence.admitsNull, readPresent, Except.toOption]
  · have plain : readPresent field.presence field.read node = (field.read node).map some := by
      unfold readPresent
      split
      · next presence =>
        cases h
        exact absurd ⟨by rw [presence]; rfl, rfl⟩ null
      · next presence =>
        cases h
        exact absurd ⟨by rw [presence]; rfl, rfl⟩ null
      · rfl
    rw [plain, present?, if_neg null, datum?, ← same]
    cases field.read node <;> rfl

theorem readMember_toOption {field : Field} (faithful : Faithful field.read) (key : Key)
    {node : Node} {value : Json} (h : node.StandsFor value) :
    (field.readMember key node).toOption = field.member? value := by
  have present := readPresent_toOption faithful h
  unfold readMember member?
  cases presence : field.presence with
  | fixed text =>
      cases h with
      | text start stop found =>
          by_cases same : found = text <;> simp [readText, same, Except.toOption]
      | null | bool | number | array | object => simp [readText, Except.toOption]
  | required | optional | filled | defaulted =>
      rw [presence] at present
      exact present

theorem settle_toOption (field : Field) (seen : Seen) (stop : Nat) :
    (field.settle seen stop).toOption = field.settled? (Keyed.get? field.name seen) := by
  unfold settle settled?
  cases field.presence <;> cases Keyed.get? field.name seen with
  | none => rfl
  | some datum => cases datum <;> rfl

end Field

def assemble (value? : Field → Option (Option Datum)) : List Field → Option Fields
  | [] => some []
  | field :: fields => do
    let datum ← value? field
    let rest ← assemble value? fields
    some (Fields.maybe field.name datum ++ rest)

theorem find?_name {fields : List Field} (distinct : (fields.map Field.name).Nodup) {field : Field}
    (h : field ∈ fields) : (fields.find? fun f => f.name == field.name) = some field := by
  induction fields with
  | nil => simp at h
  | cons first fields ih =>
      simp only [List.map_cons, List.nodup_cons] at distinct
      rcases List.mem_cons.mp h with rfl | hmem
      · simp
      · have ne : first.name ≠ field.name := fun e =>
          distinct.1 (e ▸ List.mem_map_of_mem hmem)
        rw [List.find?_cons_of_neg (by simpa using ne)]
        exact ih distinct.2 hmem

section Members

variable {kind : RecordKind} {fields : List Field} {members : List (String × Json)} {seen : Seen}

theorem seen?_cons_of_ne {field : Field} {name : String} (ne : field.name ≠ name) (value : Json) :
    field.seen? kind ((name, value) :: members) seen = field.seen? kind members seen := by
  rw [Field.seen?, occurrences_cons_of_ne ne, Field.seen?]

theorem seen?_cons_self {field : Field} (value : Json) :
    field.seen? kind ((field.name, value) :: members) seen =
      (field.next? kind (Keyed.get? field.name seen) value).bind fun state =>
        (occurrences field.name members).foldlM (field.next? kind) state := by
  rw [Field.seen?, occurrences_cons_self, List.foldlM_cons]
  rfl

/-- A member that is read has been seen of its own field, and nothing else of the others. -/
theorem seen?_cons (distinct : (fields.map Field.name).Nodup) {field : Field}
    (hfield : field ∈ fields) (once : ¬ (kind = .plain ∧ (Keyed.get? field.name seen).isSome))
    {value : Json} {datum : Option Datum} (member : field.member? value = some datum) :
    ∀ f ∈ fields, f.seen? kind ((field.name, value) :: members) seen =
      f.seen? kind members ((field.name, datum) :: seen) := by
  intro f hf
  by_cases own : f.name = field.name
  · obtain rfl := List.inj_on_of_nodup_map distinct hfield hf own.symm
    rw [seen?_cons_self, Field.next?, if_neg once, member]
    simp [Field.seen?, Keyed.get?]
  · rw [seen?_cons_of_ne own, Field.seen?, Field.seen?]
    simp [Keyed.get?, Ne.symm own]

/-- Reading on has come to the state of each field, or has stopped because of one. -/
def Arrives (kind : RecordKind) (fields : List Field) (members : List (String × Json))
    (seen : Seen) : Result Seen → Prop
  | .ok last => ∀ f ∈ fields, f.seen? kind members seen = some (Keyed.get? f.name last)
  | .error _ => ∃ f ∈ fields, f.seen? kind members seen = none

theorem Arrives.congr {others : List (String × Json)} {before : Seen} {result : Result Seen}
    (h : Arrives kind fields others before result)
    (same : ∀ f ∈ fields, f.seen? kind members seen = f.seen? kind others before) :
    Arrives kind fields members seen result := by
  cases result with
  | ok last => exact fun f hf => (same f hf).trans (h f hf)
  | error mismatch =>
      obtain ⟨f, hf, fails⟩ := h
      exact ⟨f, hf, (same f hf).trans fails⟩

end Members

theorem arrives_readMembers (kind : RecordKind) {fields : List Field}
    (distinct : (fields.map Field.name).Nodup) (faithful : ∀ f ∈ fields, Faithful f.read) :
    (nodes : List (Key × Node)) → {members : List (String × Json)} →
    MembersStandFor nodes members → ∀ seen : Seen,
      Arrives kind fields members seen (readMembers kind fields nodes seen)
  | [], _, h, seen => by
      cases h
      exact fun f _ => rfl
  | (key, node) :: nodes, _, h, seen => by
      obtain _ | ⟨named, skippable, head, tail⟩ := h
      next name value members =>
      have rest := arrives_readMembers kind distinct faithful nodes tail
      simp only [readMembers, named]
      cases found : fields.find? fun f => f.name == name with
      | none =>
          have ne : ∀ f ∈ fields, f.name ≠ name := by simpa using found
          simp only [head.skip]
          exact (rest seen).congr fun f hf => seen?_cons_of_ne (ne f hf) value
      | some field =>
          have hfield : field ∈ fields := List.mem_of_find?_eq_some found
          obtain rfl : field.name = name := by simpa using List.find?_some found
          have member := Field.readMember_toOption (faithful field hfield) key head
          by_cases twice : kind = .plain ∧ (Keyed.get? field.name seen).isSome
          · simp only [if_pos twice]
            refine ⟨field, hfield, ?_⟩
            rw [seen?_cons_self, Field.next?, if_pos twice]
            rfl
          · simp only [if_neg twice]
            cases read : field.readMember key node with
            | error mismatch =>
                rw [read] at member
                refine ⟨field, hfield, ?_⟩
                rw [seen?_cons_self, Field.next?, if_neg twice, ← member]
                rfl
            | ok datum =>
                rw [read] at member
                exact (rest ((field.name, datum) :: seen)).congr
                  (seen?_cons distinct hfield twice member.symm)

theorem settleFields_toOption (seen : Seen) (stop : Nat) (fields : List Field) :
    (settleFields seen stop fields).toOption =
      assemble (fun f => f.settled? (Keyed.get? f.name seen)) fields := by
  induction fields with
  | nil => rfl
  | cons field fields ih =>
      rw [assemble, ← ih, ← Field.settle_toOption field seen stop, settleFields]
      cases field.settle seen stop with
      | error mismatch => rfl
      | ok datum => cases settleFields seen stop fields <;> cases datum <;> rfl

theorem assemble_congr {value? other? : Field → Option (Option Datum)} {fields : List Field}
    (h : ∀ f ∈ fields, value? f = other? f) : assemble value? fields = assemble other? fields := by
  induction fields with
  | nil => rfl
  | cons field fields ih =>
      rw [assemble, assemble, h field List.mem_cons_self,
        ih fun f hf => h f (List.mem_cons_of_mem field hf)]

theorem assemble_none {value? : Field → Option (Option Datum)} {fields : List Field} {field : Field}
    (hf : field ∈ fields) (h : value? field = none) : assemble value? fields = none := by
  induction fields with
  | nil => simp at hf
  | cons first fields ih =>
      rcases List.mem_cons.mp hf with rfl | hmem
      · rw [assemble, h]
        rfl
      · rw [assemble, ih hmem]
        cases value? first <;> rfl

theorem readRecord_object {kind : RecordKind} {name : String} {fields : List Field}
    (distinct : (fields.map Field.name).Nodup) (faithful : ∀ f ∈ fields, Faithful f.read)
    {node : Node} {members : List (String × Json)} (h : node.StandsFor (.object members)) :
    (readRecord kind name fields node).toOption =
      (assemble (Field.gathered? kind members) fields).map .record := by
  obtain _ | _ | _ | _ | _ | ⟨start, stop, stand⟩ := h
  next nodes =>
  have arrives := arrives_readMembers kind distinct faithful nodes stand []
  rw [readRecord]
  cases read : readMembers kind fields nodes [] with
  | ok last =>
      rw [read] at arrives
      have gathered : assemble (Field.gathered? kind members) fields =
          assemble (fun f => f.settled? (Keyed.get? f.name last)) fields := by
        refine assemble_congr fun f hf => ?_
        rw [Field.gathered?_eq, arrives f hf]
        rfl
      rw [gathered, ← settleFields_toOption last stop]
      cases settled : settleFields last stop fields <;>
        simp [readEnding, settled, bind, Except.bind, Except.toOption]
  | error mismatch =>
      rw [read] at arrives
      obtain ⟨f, hf, fails⟩ := arrives
      have missing : f.gathered? kind members = none := by
        rw [Field.gathered?_eq, fails]
        rfl
      rw [assemble_none hf missing]
      rfl

def positioned? : List Field → List Json → Option Fields
  | [], [] => some []
  | [], _ :: _ => none
  | field :: fields, value :: values => do
    let datum ← field.present? value
    let rest ← positioned? fields values
    some (Fields.maybe field.name datum ++ rest)
  | field :: fields, [] =>
    if field.presence = .filled then
      (positioned? fields []).map ((field.name, field.shape.default) :: ·)
    else none

theorem readPositions_spec (title : String) (stop : Nat) {fields : List Field}
    (faithful : ∀ f ∈ fields, Faithful f.read) {nodes : List Node} {values : List Json}
    (h : ItemsStandFor nodes values) (index : Nat) :
    match readPositions title (.closed stop) index fields nodes with
    | .ok (data, []) => positioned? fields values = some data
    | .ok (_, _ :: _) => positioned? fields values = none
    | .error _ => positioned? fields values = none := by
  induction fields generalizing nodes values index with
  | nil => cases h <;> simp [readPositions, positioned?]
  | cons field fields ih =>
      have others : ∀ f ∈ fields, Faithful f.read :=
        fun f hf => faithful f (List.mem_cons_of_mem field hf)
      cases h with
      | nil =>
          by_cases filled : field.presence = .filled
          · have rest := ih others .nil (index + 1)
            simp only [readPositions, readEnding, bind, Except.bind, if_pos filled, positioned?]
            split at rest <;> next read => simp [read, rest]
          · simp [readPositions, readEnding, bind, Except.bind, filled, positioned?]
      | cons head tail =>
          have rest := ih others tail (index + 1)
          rw [readPositions, positioned?,
            ← Field.readPresent_toOption (faithful field List.mem_cons_self) head]
          cases readPresent field.presence field.read _ with
          | error mismatch => rfl
          | ok datum =>
              split at rest <;> next read =>
                cases datum <;> simp [read, rest, bind, Except.bind, Except.toOption, Fields.maybe]

theorem readRecord_array {name : String} {fields : List Field}
    (faithful : ∀ f ∈ fields, Faithful f.read) {node : Node} {items : List Json}
    (h : node.StandsFor (.array items)) :
    (readRecord .plain name fields node).toOption = (positioned? fields items).map .record := by
  obtain _ | _ | _ | _ | ⟨start, opened, stop, stand⟩ := h
  next nodes =>
  have spec := readPositions_spec (listTitle name fields.length) stop faithful stand 0
  rw [readRecord]
  simp only [bind, Except.bind]
  split at spec <;> next read => simp [read, spec, readNoMore, Except.toOption]

end PodWebhook.Schema

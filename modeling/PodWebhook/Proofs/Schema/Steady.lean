import Mathlib.Data.List.ReduceOption
import PodWebhook.Proofs.Json.Likeness
import PodWebhook.Proofs.Schema.Values

/-!
Readers that mind what a tree holds. From trees that are alike a reader takes the same data, or none
from either: a record, too, for which it is the same in what order its members come.
-/

namespace PodWebhook.Schema

open Json (Node Key)
open Json.Node (Alike MemberAlike forall₂_memberAlike pair? names)

/-- The same comes of trees that are alike, if anything does. -/
def Steady {α : Type} (read : Node → Result α) : Prop :=
  ∀ {node other : Node}, node.Alike other → (read node).toOption = (read other).toOption

theorem steady_readBool : Steady readBool := by
  intro node other h
  cases h <;> simp [readBool, Except.toOption]

theorem steady_readInt (kind : IntegerKind) : Steady (readInt kind) := by
  intro node other h
  cases h with
  | number start stop start' stop' n =>
      cases n with
      | int value => cases holds : kind.holds value <;> simp [readInt, holds, Except.toOption]
      | double bits => rfl
  | null | bool | text | array | object | unreadable => simp [readInt, Except.toOption]

theorem steady_readText : Steady readText := by
  intro node other h
  cases h <;> simp [readText, Except.toOption]

theorem steady_readNumberOrText : Steady readNumberOrText := by
  intro node other h
  cases h <;> simp [readNumberOrText, Except.toOption]

theorem steady_readIntOrText : Steady readIntOrText := by
  intro node other h
  cases h with
  | number start stop start' stop' n =>
      cases n with
      | int value =>
          cases holds : IntegerKind.i32.holds value <;>
            simp [readIntOrText, holds, Except.toOption]
      | double bits => rfl
  | null | bool | text | array | object | unreadable => simp [readIntOrText, Except.toOption]

theorem steady_readInstant : Steady readInstant := by
  intro node other h
  cases h with
  | text start stop start' stop' s =>
      simp only [readInstant]
      cases Timestamp.read s <;> rfl
  | null | bool | number | array | object | unreadable => simp [readInstant, Except.toOption]

theorem readAny_eq (node : Node) : (readAny node).toOption = node.value?.map .json := by
  rw [readAny, Node.value?]
  cases node.toJson <;> rfl

theorem steady_readAny : Steady readAny := by
  intro node other h
  rw [readAny_eq, readAny_eq, Alike.value? node h]

theorem readVariant_many (names : List String) (start stop : Nat) {members : List (Key × Node)}
    (h : 2 ≤ members.length) :
    (readVariant names (.object start members (.closed stop))).toOption = none := by
  obtain ⟨⟨key, value⟩, second, others, rfl⟩ : ∃ first second others,
      members = first :: second :: others := by
    match members, h with
    | first :: second :: others, _ => exact ⟨first, second, others, rfl⟩
  simp only [readVariant]
  cases key.name with
  | error fault => rfl
  | ok found =>
      by_cases known : found ∈ names
      · cases value <;>
          simp [checkVariant, known, readVariantEnd, bind, Except.bind, Except.toOption]
      · simp [checkVariant, known, bind, Except.bind, Except.toOption]

theorem readVariant_one (names : List String) (start stop start' stop' : Nat)
    {m n : Key × Node} (h : MemberAlike m n) :
    (readVariant names (.object start [m] (.closed stop))).toOption =
      (readVariant names (.object start' [n] (.closed stop'))).toOption := by
  obtain ⟨key, value⟩ := m
  obtain ⟨key', value'⟩ := n
  obtain ⟨⟨-, -, named⟩, alike⟩ := h
  simp only at named
  simp only [readVariant]
  cases read : key.name with
  | error fault =>
      rw [read] at named
      cases read' : key'.name with
      | error fault' => rfl
      | ok found => simp [read', Except.toOption] at named
  | ok found =>
      rw [read] at named
      rw [toOption_eq_some_iff.mp named.symm]
      by_cases known : found ∈ names
      · cases alike <;>
          simp [checkVariant, known, readVariantEnd, bind, Except.bind, Except.toOption]
      · simp [checkVariant, known, bind, Except.bind, Except.toOption]

theorem steady_readVariant (names : List String) : Steady (readVariant names) := by
  intro node other h
  cases h with
  | null | bool | number | array | unreadable => simp [readVariant, Except.toOption]
  | text start stop start' stop' found =>
      by_cases known : found ∈ names <;>
        simp [readVariant, checkVariant, known, bind, Except.bind, Except.toOption]
  | object start stop start' stop' keys values order =>
      have pairs := forall₂_memberAlike keys values
      cases pairs with
      | nil =>
          rw [List.nil_perm.mp order.perm]
          simp [readVariant, Except.toOption]
      | cons head tail =>
          cases tail with
          | nil =>
              rw [List.perm_singleton.mp order.perm.symm]
              exact readVariant_one names start stop start' stop' head
          | cons second tail =>
              have length := order.perm.length_eq
              simp only [List.length_cons] at length
              rw [readVariant_many names start stop (by simp),
                readVariant_many names start' stop' (by omega)]

theorem steady_readList {read : Node → Result Datum} (steady : Steady read) :
    Steady (readList read) := by
  intro node other h
  cases h with
  | array start opened stop start' opened' stop' pairs =>
      rw [readList_eq, readList_eq, mapM_congr_forall₂ pairs fun _ _ _ alike => steady alike]
  | null | bool | number | text | object | unreadable => simp [readList, Except.toOption]

theorem steady_readMap {read : Node → Result Datum} (steady : Steady read) :
    Steady (readMap read) := by
  intro node other h
  cases h with
  | object start stop start' stop' keys values order =>
      rw [readMap_eq, readMap_eq, Node.ofList_entries (forall₂_memberAlike keys values) order
        fun _ _ _ alike => steady alike]
  | null | bool | number | text | array | unreadable => simp [readMap, Except.toOption]

namespace Field

variable {field : Field}

theorem steady_readPresent (presence : Presence) {read : Node → Result Datum}
    (steady : Steady read) : Steady (readPresent presence read) := by
  intro node other h
  have same := steady h
  cases h with
  | null =>
      cases presence with
      | optional | defaulted => rfl
      | required | filled | fixed => simp only [readPresent, toOption_map, same]
  | bool | number | text | array | object | unreadable =>
      simp only [readPresent, toOption_map, same]

theorem steady_readMember (steady : Steady field.read) (key key' : Key) {node other : Node}
    (h : node.Alike other) :
    (field.readMember key node).toOption = (field.readMember key' other).toOption := by
  have present := steady_readPresent field.presence steady h
  unfold readMember
  cases presence : field.presence with
  | fixed text =>
      cases h with
      | text start stop start' stop' found =>
          by_cases same : found = text <;> simp [readText, same, Except.toOption]
      | null | bool | number | array | object | unreadable => simp [readText, Except.toOption]
  | required | optional | filled | defaulted =>
      rw [presence] at present
      exact present

end Field

def met? (fields : List Field) (m : Key × Node) : Option (Option (String × Option Datum)) :=
  m.1.name.toOption.bind fun name =>
    match fields.find? fun field => field.name == name with
    | none => m.2.skip.toOption.map fun _ => none
    | some field => (field.readMember m.1 m.2).toOption.map fun datum => some (name, datum)

/-- A record that is plain has no field twice. -/
def Unrepeated (kind : RecordKind) (seen : Seen) : Prop := kind = .plain → (seen.map (·.1)).Nodup

instance (kind : RecordKind) (seen : Seen) : Decidable (Unrepeated kind seen) :=
  inferInstanceAs (Decidable (_ → _))

section Members

variable {kind : RecordKind} {seen : Seen}

theorem unrepeated_cons_iff (h : Unrepeated kind seen) (name : String) (datum : Option Datum) :
    Unrepeated kind ((name, datum) :: seen) ↔
      ¬ (kind = .plain ∧ (Keyed.get? name seen).isSome) := by
  rw [Unrepeated, List.map_cons, List.nodup_cons, Keyed.isSome_get?_iff, not_and]
  exact ⟨fun once plain => (once plain).1, fun fresh plain => ⟨fresh plain, h plain⟩⟩

theorem Unrepeated.of_append {more : Seen} (h : Unrepeated kind (more ++ seen)) :
    Unrepeated kind seen := fun plain =>
  (h plain).sublist ((List.sublist_append_right more seen).map _)

end Members

/-- Members are read one by one, each for itself; but no field may come twice in a plain record. -/
theorem readMembers_toOption (kind : RecordKind) (fields : List Field)
    (members : List (Key × Node)) (seen : Seen) (once : Unrepeated kind seen) :
    (readMembers kind fields members seen).toOption =
      (members.mapM (met? fields)).bind fun met =>
        let last := met.reduceOption.reverse ++ seen
        if Unrepeated kind last then some last else none := by
  induction members generalizing seen with
  | nil => simp [readMembers, Except.toOption, once]
  | cons m members ih =>
      obtain ⟨key, node⟩ := m
      rw [List.mapM_cons]
      cases named : key.name with
      | error fault => simp [readMembers, met?, named, Except.toOption]
      | ok name =>
          cases found : fields.find? fun field => field.name == name with
          | none =>
              cases skipped : node.skip with
              | error fault => simp [readMembers, met?, named, found, skipped, Except.toOption]
              | ok _ =>
                  have met : met? fields (key, node) = some none := by
                    simp [met?, named, found, skipped, Except.toOption]
                  simp only [readMembers, named, found, skipped, ih seen once, met]
                  cases members.mapM (met? fields) <;> rfl
          | some field =>
              cases read : field.readMember key node with
              | error mismatch =>
                  have met : met? fields (key, node) = none := by
                    simp [met?, named, found, read, Except.toOption]
                  simp only [readMembers, named, found, read, met]
                  split <;> rfl
              | ok datum =>
                  have met : met? fields (key, node) = some (some (name, datum)) := by
                    simp [met?, named, found, read, Except.toOption]
                  have fresh := unrepeated_cons_iff once name datum
                  simp only [readMembers, named, found, read, met]
                  by_cases twice : kind = .plain ∧ (Keyed.get? name seen).isSome
                  · have never (more : Seen) : ¬ Unrepeated kind (more ++ (name, datum) :: seen) :=
                      fun h => fresh.mp h.of_append twice
                    rw [if_pos twice]
                    cases members.mapM (met? fields) <;> simp [never, Except.toOption]
                  · rw [if_neg twice, ih _ (fresh.mpr twice)]
                    cases members.mapM (met? fields) <;> simp

theorem names_of_met {fields : List Field} {members : List (Key × Node)}
    {met : List (Option (String × Option Datum))} (h : members.mapM (met? fields) = some met) :
    (met.reduceOption.map (·.1)).Sublist (names members) := by
  have each := mapM_eq_some_iff.mp h
  clear h
  induction each with
  | nil => exact .slnil
  | @cons m entry members met head _ ih =>
      obtain ⟨name, named, made⟩ := Option.bind_eq_some_iff.mp head
      have all : names (m :: members) = name :: names members := by
        rw [names, names, List.filterMap_cons, named]
      rw [all]
      split at made
      · obtain ⟨_, _, rfl⟩ := Option.map_eq_some_iff.mp made
        exact ih.cons name
      · obtain ⟨datum, _, rfl⟩ := Option.map_eq_some_iff.mp made
        exact ih.cons_cons name

def recordOf? (kind : RecordKind) (fields : List Field)
    (met : List (Option (String × Option Datum))) : Option Datum :=
  let seen := met.reduceOption.reverse
  if Unrepeated kind seen then
    (assemble (fun f => f.settled? (Keyed.get? f.name seen)) fields).map .record
  else none

theorem readRecord_members (kind : RecordKind) (name : String) (fields : List Field)
    (start stop : Nat) (members : List (Key × Node)) :
    (readRecord kind name fields (.object start members (.closed stop))).toOption =
      ((members.mapM (met? fields)).map (recordOf? kind fields)).join := by
  have read := readMembers_toOption kind fields members [] fun _ => List.nodup_nil
  simp only [List.append_nil] at read
  have whole : (readRecord kind name fields (.object start members (.closed stop))).toOption =
      (readMembers kind fields members []).toOption.bind fun seen =>
        (assemble (fun f => f.settled? (Keyed.get? f.name seen)) fields).map .record := by
    rw [readRecord]
    cases readMembers kind fields members [] with
    | error mismatch => rfl
    | ok seen =>
        rw [toOption_eq_some_iff.mpr rfl, Option.bind_some, ← settleFields_toOption seen stop]
        cases settled : settleFields seen stop fields <;>
          simp [readEnding, settled, bind, Except.bind, Except.toOption]
  rw [whole, read]
  cases members.mapM (met? fields) with
  | none => rfl
  | some met =>
      rw [Option.bind_some, Option.map_some, Option.join_some, recordOf?]
      split <;> rfl

theorem recordOf?_perm (kind : RecordKind) (fields : List Field)
    {met others : List (Option (String × Option Datum))}
    (order : met.Perm others) (distinct : (met.reduceOption.map (·.1)).Nodup) :
    recordOf? kind fields met = recordOf? kind fields others := by
  have entries : met.reduceOption.reverse.Perm others.reduceOption.reverse :=
    (List.reverse_perm _).trans ((order.filterMap id).trans (List.reverse_perm _).symm)
  have keys : (met.reduceOption.reverse.map (·.1)).Nodup := by
    rw [List.map_reverse, List.nodup_reverse]
    exact distinct
  have once : Unrepeated kind met.reduceOption.reverse := fun _ => keys
  have onceOthers : Unrepeated kind others.reduceOption.reverse := fun _ =>
    (entries.map _).nodup_iff.mp keys
  rw [recordOf?, recordOf?, if_pos once, if_pos onceOthers, assemble_congr fun f _ =>
    congrArg f.settled? (Keyed.get?_perm entries keys f.name)]

theorem met?_alike {fields : List Field} (steady : ∀ f ∈ fields, Steady f.read)
    {m n : Key × Node} (h : MemberAlike m n) : met? fields m = met? fields n := by
  obtain ⟨key, alike⟩ := h
  obtain ⟨left, right⟩ := Alike.skip m.2 alike
  rw [met?, met?, key.name, left, right]
  refine congrArg _ (funext fun name => ?_)
  cases found : fields.find? fun field => field.name == name with
  | none => rfl
  | some field =>
      have hf := List.mem_of_find?_eq_some found
      simp only [Field.steady_readMember (steady field hf) m.1 n.1 alike]

def placed? (title : String) (stop index : Nat) (fields : List Field) (nodes : List Node) :
    Option (Fields × Bool) :=
  (readPositions title (.closed stop) index fields nodes).toOption.map fun r => (r.1, r.2.isEmpty)

theorem placed?_cons (title : String) (stop index : Nat) (field : Field) (fields : List Field)
    (node : Node) (nodes : List Node) :
    placed? title stop index (field :: fields) (node :: nodes) =
      (readPresent field.presence field.read node).toOption.bind fun datum =>
        (placed? title stop (index + 1) fields nodes).map fun r =>
          (Fields.maybe field.name datum ++ r.1, r.2) := by
  rw [placed?, placed?, readPositions]
  cases readPresent field.presence field.read node with
  | error mismatch => rfl
  | ok datum =>
      simp only [bind, Except.bind]
      cases readPositions title (.closed stop) (index + 1) fields nodes <;> cases datum <;> rfl

theorem placed?_nil (title : String) (stop index : Nat) (field : Field) (fields : List Field) :
    placed? title stop index (field :: fields) [] =
      if field.presence = .filled then
        (placed? title stop (index + 1) fields []).map fun r =>
          ((field.name, field.shape.default) :: r.1, r.2)
      else none := by
  rw [placed?, placed?, readPositions]
  simp only [readEnding, bind, Except.bind]
  split
  · cases readPositions title (.closed stop) (index + 1) fields [] <;> rfl
  · rfl

theorem placed?_alike (title : String) (stop stop' : Nat) {fields : List Field}
    (steady : ∀ f ∈ fields, Steady f.read) {nodes others : List Node}
    (h : List.Forall₂ Alike nodes others) (index : Nat) :
    placed? title stop index fields nodes = placed? title stop' index fields others := by
  induction fields generalizing nodes others index with
  | nil => cases h <;> simp [placed?, readPositions, Except.toOption]
  | cons field fields ih =>
      have others : ∀ f ∈ fields, Steady f.read :=
        fun f hf => steady f (List.mem_cons_of_mem field hf)
      cases h with
      | nil => rw [placed?_nil, placed?_nil, ih others .nil]
      | cons head tail =>
          have present := Field.steady_readPresent field.presence
            (steady field List.mem_cons_self) head
          rw [placed?_cons, placed?_cons, present, ih others tail]

theorem readRecord_plain_array (name : String) (fields : List Field) (start opened stop : Nat)
    (nodes : List Node) :
    (readRecord .plain name fields (.array start opened nodes (.closed stop))).toOption =
      (placed? (listTitle name fields.length) stop 0 fields nodes).bind fun r =>
        if r.2 then some (.record r.1) else none := by
  rw [readRecord, placed?]
  simp only [bind, Except.bind]
  cases readPositions (listTitle name fields.length) (.closed stop) 0 fields nodes with
  | error mismatch => rfl
  | ok r =>
      obtain ⟨data, left⟩ := r
      cases left <;> rfl

theorem steady_readRecord {kind : RecordKind} {name : String} {fields : List Field}
    (steady : ∀ f ∈ fields, Steady f.read) : Steady (readRecord kind name fields) := by
  intro node other h
  cases h with
  | object start stop start' stop' keys values order =>
      have same := mapM_congr_forall₂ (forall₂_memberAlike keys values) fun _ _ _ =>
        met?_alike steady
      rw [readRecord_members, readRecord_members, same]
      cases order with
      | same => rfl
      | permuted distinct order =>
          refine congrArg Option.join (map_mapM_perm order fun met _ found perm =>
            recordOf?_perm kind fields perm (distinct.sublist (names_of_met found)))
  | array start opened stop start' opened' stop' pairs =>
      cases kind with
      | object => simp [readRecord, Except.toOption]
      | plain =>
          rw [readRecord_plain_array, readRecord_plain_array,
            placed?_alike _ stop stop' steady pairs]
  | null | bool | number | text | unreadable => simp [readRecord, Except.toOption]

namespace Shape

mutual

theorem steady_read : (shape : Shape) → Steady shape.read
  | .bool => by
      rw [read]
      exact steady_readBool
  | .int kind => by
      rw [read]
      exact steady_readInt kind
  | .text => by
      rw [read]
      exact steady_readText
  | .numberOrText => by
      rw [read]
      exact steady_readNumberOrText
  | .intOrText => by
      rw [read]
      exact steady_readIntOrText
  | .instant => by
      rw [read]
      exact steady_readInstant
  | .any => by
      rw [read]
      exact steady_readAny
  | .variant names => by
      rw [read]
      exact steady_readVariant names
  | .list item => by
      rw [read]
      exact steady_readList (steady_read item)
  | .map value => by
      rw [read]
      exact steady_readMap (steady_read value)
  | .record kind name fields => by
      rw [read]
      exact steady_readRecord (steady_fieldsOf fields)

theorem steady_fieldsOf : (fields : List (String × Presence × Shape)) →
    ∀ f ∈ fieldsOf fields, Steady f.read
  | [] => List.forall_mem_nil _
  | (_, _, shape) :: fields =>
      List.forall_mem_cons.mpr ⟨steady_read shape, steady_fieldsOf fields⟩

end

end Shape

end PodWebhook.Schema

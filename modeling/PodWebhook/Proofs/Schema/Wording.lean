import PodWebhook.Proofs.Json.Strings
import PodWebhook.Proofs.Text.Lines
import PodWebhook.Schema.Reader

/-!
How mismatches are worded. What a mismatch repeats of a text is quoted, the name of a variant apart;
so where a shape has no variants all that can be said about a text fits on one line.
-/

namespace PodWebhook.Schema

open Json (Node Key Ending Fault Cause)

open Text

theorem oneLine_cause (cause : Cause) : OneLine cause.message := by
  cases cause <;> exact oneLine_literal rfl

theorem oneLine_found (found : Found) : OneLine found.describe := by
  have between {a b c : String} (ha : OneLine a) (hb : OneLine b) (hc : OneLine c) :
      OneLine (a ++ b ++ c) := oneLine_append.mpr ⟨oneLine_append.mpr ⟨ha, hb⟩, hc⟩
  cases found with
  | null | list | map => exact oneLine_literal rfl
  | bool value =>
      exact between (oneLine_literal rfl) (oneLine_ite (oneLine_literal rfl) (oneLine_literal rfl))
        (oneLine_literal rfl)
  | number n =>
      cases n with
      | int value =>
          exact between (oneLine_literal rfl) (oneLine_toString_int value) (oneLine_literal rfl)
      | double bits =>
          exact between (oneLine_literal rfl) (oneLine_doubleText bits) (oneLine_literal rfl)
  | text value => exact oneLine_append.mpr ⟨oneLine_literal rfl, oneLine_quoted value⟩

def Discreet {α : Type} (result : Result α) : Prop :=
  ∀ mismatch, result = .error mismatch → OneLine mismatch.reason.describe

theorem discreet_ok {α : Type} (a : α) : Discreet (.ok a) := by
  rintro _ ⟨⟩

theorem discreet_error {α : Type} {mismatch : Mismatch} (h : OneLine mismatch.reason.describe) :
    Discreet (α := α) (.error mismatch) := by
  rintro _ ⟨⟩
  exact h

theorem discreet_malformed {α : Type} (fault : Fault) :
    Discreet (α := α) (.error (malformed fault)) :=
  discreet_error (oneLine_cause fault.cause)

theorem Discreet.bind {α β : Type} {result : Result α} {next : α → Result β}
    (h : Discreet result) (hn : ∀ a, Discreet (next a)) : Discreet (result >>= next) := by
  cases result with
  | ok a => exact hn a
  | error mismatch => exact discreet_error (h mismatch rfl)

theorem Discreet.map {α β : Type} {result : Result α} (h : Discreet result) (f : α → β) :
    Discreet (result.map f) := by
  cases result with
  | ok a => exact discreet_ok (f a)
  | error mismatch => exact discreet_error (h mismatch rfl)

theorem discreet_wrongType {α : Type} {expected : String} (h : OneLine expected) (found : Found)
    (pos : Nat) : Discreet (α := α) (.error ⟨.wrongType found expected, pos⟩) := by
  refine discreet_error (oneLine_append.mpr ⟨oneLine_append.mpr ⟨?_, oneLine_literal rfl⟩, h⟩)
  exact oneLine_append.mpr ⟨oneLine_literal rfl, oneLine_found found⟩

theorem discreet_wrongValue {α : Type} {expected : String} (h : OneLine expected) (found : Found)
    (pos : Nat) : Discreet (α := α) (.error ⟨.wrongValue found expected, pos⟩) := by
  refine discreet_error (oneLine_append.mpr ⟨oneLine_append.mpr ⟨?_, oneLine_literal rfl⟩, h⟩)
  exact oneLine_append.mpr ⟨oneLine_literal rfl, oneLine_found found⟩

theorem discreet_unexpected {α : Type} {expected : String} (h : OneLine expected) (node : Node) :
    Discreet (α := α) (.error (unexpected expected node)) := by
  cases node with
  | unreadable | broken => exact discreet_malformed _
  | null | bool | number | text | array | object => exact discreet_wrongType h _ _

/-! A reader of a value, and the readers made from it -/

theorem discreet_readBool (node : Node) : Discreet (readBool node) := by
  unfold readBool
  split
  · exact discreet_ok _
  · exact discreet_unexpected (oneLine_literal rfl) node

theorem oneLine_integerKind (kind : IntegerKind) : OneLine kind.name := by
  cases kind <;> exact oneLine_literal rfl

theorem discreet_readInt (kind : IntegerKind) (node : Node) : Discreet (readInt kind node) := by
  unfold readInt
  split
  · split
    · exact discreet_ok _
    · exact discreet_wrongValue (oneLine_integerKind kind) _ _
  · exact discreet_unexpected (oneLine_integerKind kind) node

theorem discreet_readText (node : Node) : Discreet (readText node) := by
  unfold readText
  split
  · exact discreet_ok _
  · exact discreet_unexpected (oneLine_literal rfl) node

theorem discreet_readNumberOrText (node : Node) : Discreet (readNumberOrText node) := by
  unfold readNumberOrText
  split
  · exact discreet_ok _
  · exact discreet_ok _
  · exact discreet_unexpected (oneLine_literal rfl) node

theorem discreet_readIntOrText (node : Node) : Discreet (readIntOrText node) := by
  unfold readIntOrText
  split
  · exact discreet_ok _
  · split
    · exact discreet_ok _
    · exact discreet_wrongValue (oneLine_literal rfl) _ _
  · exact discreet_unexpected (oneLine_literal rfl) node

theorem discreet_readInstant (node : Node) : Discreet (readInstant node) := by
  unfold readInstant
  split
  · split
    · exact discreet_ok _
    · exact discreet_error (oneLine_message _)
  · exact discreet_unexpected (oneLine_literal rfl) node

theorem discreet_readAny (node : Node) : Discreet (readAny node) := by
  unfold readAny
  split
  · exact discreet_ok _
  · exact discreet_malformed _

section

variable {read : Node → Result Datum} (h : ∀ node, Discreet (read node))

include h

theorem discreet_readPresent (presence : Presence) (node : Node) :
    Discreet (readPresent presence read node) := by
  unfold readPresent
  split
  · exact discreet_ok _
  · exact discreet_ok _
  · exact (h node).map some

theorem discreet_readItems (items : List Node) (data : List Datum) :
    Discreet (readItems read items data) := by
  fun_induction readItems read items data with
  | case1 => exact discreet_ok _
  | case2 item items data datum given ih => exact ih
  | case3 item items data mismatch failed => exact discreet_error (h item mismatch failed)

theorem discreet_readEntries (members : List (Key × Node)) (data : List (String × Datum)) :
    Discreet (readEntries read members data) := by
  fun_induction readEntries read members data with
  | case1 => exact discreet_ok _
  | case2 => exact discreet_malformed _
  | case3 key node members data name named datum given ih => exact ih
  | case4 key node members data name named mismatch failed =>
      exact discreet_error (h node mismatch failed)

omit h in
theorem discreet_readEnding (ending : Ending) : Discreet (readEnding ending) := by
  cases ending with
  | closed stop => exact discreet_ok stop
  | broken reading skipping closing => exact discreet_malformed reading

theorem discreet_readList (node : Node) : Discreet (readList read node) := by
  unfold readList
  split
  · exact (discreet_readItems h _ _).bind fun data =>
      (discreet_readEnding _).bind fun _ => discreet_ok _
  · exact discreet_unexpected (oneLine_literal rfl) node

theorem discreet_readMap (node : Node) : Discreet (readMap read node) := by
  unfold readMap
  split
  · exact (discreet_readEntries h _ _).bind fun data =>
      (discreet_readEnding _).bind fun _ => discreet_ok _
  · exact discreet_unexpected (oneLine_literal rfl) node

end

structure Field.Discreet (field : Field) : Prop where
  name : OneLine field.name
  fixed : ∀ value, field.presence = .fixed value → OneLine value
  read : ∀ node, Schema.Discreet (field.read node)

namespace Field.Discreet

variable {field : Field} (h : field.Discreet)

include h

theorem readMember (key : Key) (node : Node) : Schema.Discreet (field.readMember key node) := by
  rw [Field.readMember]
  split
  · next value fixed =>
    split
    · split
      · exact discreet_ok _
      · exact discreet_wrongValue (h.fixed value fixed) _ _
    · exact discreet_ok _
    · next mismatch failed => exact discreet_error (discreet_readText node mismatch failed)
  · exact discreet_readPresent h.read _ node

theorem settle (seen : Seen) (stop : Nat) : Schema.Discreet (field.settle seen stop) := by
  rw [Field.settle]
  split
  case h_2 =>
    exact discreet_error (oneLine_append.mpr
      ⟨oneLine_append.mpr ⟨oneLine_literal rfl, h.name⟩, oneLine_literal rfl⟩)
  all_goals exact discreet_ok _

end Field.Discreet

section

variable {fields : List Field} (h : ∀ field ∈ fields, field.Discreet)

include h

theorem discreet_readMembers (kind : RecordKind) (members : List (Key × Node)) (seen : Seen) :
    Discreet (readMembers kind fields members seen) := by
  induction members generalizing seen with
  | nil => exact discreet_ok seen
  | cons member members ih =>
      obtain ⟨key, node⟩ := member
      rw [readMembers]
      split
      · exact discreet_malformed _
      · next name named =>
        split
        · split
          · exact ih seen
          · exact discreet_malformed _
        · next field found =>
          have discreet := h field (List.mem_of_find?_eq_some found)
          have called : field.name = name := by simpa using List.find?_some found
          split
          · exact discreet_error (oneLine_append.mpr ⟨oneLine_append.mpr
              ⟨oneLine_literal rfl, called ▸ discreet.name⟩, oneLine_literal rfl⟩)
          · split
            · exact ih _
            · next mismatch failed =>
              exact discreet_error (discreet.readMember key node mismatch failed)

theorem discreet_settleFields (seen : Seen) (stop : Nat) :
    Discreet (settleFields seen stop fields) := by
  induction fields with
  | nil => exact discreet_ok _
  | cons field fields ih =>
      obtain ⟨first, rest⟩ := List.forall_mem_cons.mp h
      rw [settleFields]
      refine (first.settle seen stop).bind fun datum => (ih rest).bind fun others => ?_
      split <;> exact discreet_ok _

theorem discreet_readPositions {title : String} (called : OneLine title) (ending : Ending)
    (index : Nat) (nodes : List Node) :
    Discreet (readPositions title ending index fields nodes) := by
  induction fields generalizing index nodes with
  | nil => exact discreet_ok _
  | cons field fields ih =>
      obtain ⟨first, rest⟩ := List.forall_mem_cons.mp h
      cases nodes with
      | nil =>
          rw [readPositions]
          refine (discreet_readEnding ending).bind fun stop => ?_
          split
          · exact (ih rest (index + 1) []).bind fun _ => discreet_ok _
          · exact discreet_error (oneLine_append.mpr ⟨oneLine_append.mpr
              ⟨oneLine_append.mpr ⟨oneLine_literal rfl, oneLine_repr index⟩,
                oneLine_literal rfl⟩, called⟩)
      | cons node nodes =>
          rw [readPositions]
          refine (discreet_readPresent first.read _ node).bind fun datum =>
            (ih rest (index + 1) nodes).bind fun others => ?_
          cases datum <;> exact discreet_ok _

omit h in
theorem discreet_readNoMore (count : Nat) (left : List Node) (ending : Ending) :
    Discreet (readNoMore count left ending) := by
  unfold readNoMore
  split
  · exact discreet_error (oneLine_append.mpr ⟨oneLine_append.mpr
      ⟨oneLine_literal rfl, oneLine_repr count⟩, oneLine_literal rfl⟩)
  · exact discreet_ok _
  · exact discreet_malformed _

theorem discreet_readRecord (kind : RecordKind) {name : String} (called : OneLine name)
    (node : Node) : Discreet (readRecord kind name fields node) := by
  have title : OneLine (Shape.recordTitle kind name) := by
    cases kind with
    | plain => exact oneLine_append.mpr ⟨oneLine_literal rfl, called⟩
    | object => exact called
  have list : OneLine (listTitle name fields.length) := by
    simp only [listTitle, oneLine_append]
    exact ⟨⟨⟨⟨oneLine_literal rfl, called⟩, oneLine_literal rfl⟩, oneLine_repr _⟩,
      oneLine_ite (oneLine_literal rfl) (oneLine_literal rfl)⟩
  unfold readRecord
  split
  · exact (discreet_readMembers h kind _ []).bind fun seen =>
      (discreet_readEnding _).bind fun stop =>
        (discreet_settleFields h seen stop).bind fun _ => discreet_ok _
  · split
    · exact discreet_wrongType title _ _
    · exact (discreet_readPositions h list _ 0 _).bind fun read =>
        (discreet_readNoMore _ read.2 _).bind fun _ => discreet_ok _
  · exact discreet_unexpected title node

end

namespace Shape

def unbroken (s : String) : Bool :=
  (Bytes.utf8 s).all fun b => b != 0x0a && b != 0x0d

mutual

/-- The names of records and of fields fit on one line, and there are no variants. -/
def discreet : Shape → Bool
  | .list item => discreet item
  | .map value => discreet value
  | .record _ name fields => unbroken name && discreetFields fields
  | .variant _ => false
  | _ => true

def discreetFields : List (String × Presence × Shape) → Bool
  | [] => true
  | (name, presence, shape) :: fields =>
    unbroken name && (match presence with | .fixed value => unbroken value | _ => true) &&
      discreet shape && discreetFields fields

end

theorem oneLine_of_unbroken {s : String} (h : unbroken s = true) : OneLine s := by
  intro c member line
  have there : ∀ b ∈ String.utf8EncodeChar c, b ∈ Bytes.utf8 s := fun b hb => by
    rw [Json.utf8_eq_flatMap]
    exact List.mem_flatMap.mpr ⟨c, member, hb⟩
  have clean := List.all_eq_true.mp h
  rcases line with rfl | rfl
  · exact absurd (clean 0x0a (there _ (.head _))) (by decide)
  · exact absurd (clean 0x0d (there _ (.head _))) (by decide)

mutual

/-- What is said by a discreet shape fits on one line, whatever it is said about. -/
theorem discreet_read : (shape : Shape) → shape.discreet = true →
    ∀ node, Discreet (shape.read node)
  | .bool, _ => discreet_readBool
  | .int kind, _ => discreet_readInt kind
  | .text, _ => discreet_readText
  | .numberOrText, _ => discreet_readNumberOrText
  | .intOrText, _ => discreet_readIntOrText
  | .instant, _ => discreet_readInstant
  | .any, _ => discreet_readAny
  | .list item, h => discreet_readList (discreet_read item h)
  | .map value, h => discreet_readMap (discreet_read value h)
  | .record kind name fields, h => by
      rw [discreet, Bool.and_eq_true] at h
      exact discreet_readRecord (discreet_fieldsOf fields h.2) kind (oneLine_of_unbroken h.1)

theorem discreet_fieldsOf : (fields : List (String × Presence × Shape)) →
    discreetFields fields = true → ∀ field ∈ fieldsOf fields, field.Discreet
  | [], _ => by simp [fieldsOf]
  | (name, presence, shape) :: fields, h => by
      simp only [discreetFields, Bool.and_eq_true] at h
      obtain ⟨⟨⟨called, fixed⟩, shaped⟩, rest⟩ := h
      rw [fieldsOf]
      refine List.forall_mem_cons.mpr ⟨⟨oneLine_of_unbroken called, ?_,
        discreet_read shape shaped⟩, discreet_fieldsOf fields rest⟩
      rintro value rfl
      exact oneLine_of_unbroken fixed

end

theorem discreet_readDocument {shape : Shape} (h : shape.discreet = true)
    (document : Json.Document) : Discreet (shape.readDocument document) := by
  refine (discreet_read shape h document.root).bind fun datum => ?_
  split
  · exact discreet_malformed _
  · exact discreet_ok _

end Shape

namespace Mismatch

variable {mismatch : Mismatch} (h : OneLine mismatch.reason.describe)

include h

theorem oneLine_describeIn (bytes : Bytes) : OneLine (mismatch.describeIn bytes) := by
  have reason : OneLine mismatch.inText.reason.describe := by
    rw [inText]
    split
    · exact oneLine_literal rfl
    · exact h
  refine oneLine_append.mpr ⟨reason, ?_⟩
  simp only [Json.Location.toText, oneLine_append]
  exact ⟨⟨⟨oneLine_literal rfl, oneLine_repr _⟩, oneLine_literal rfl⟩, oneLine_repr _⟩

end Mismatch

end PodWebhook.Schema

import PodWebhook.Json.Node
import PodWebhook.Proofs.Json.Tokens
import PodWebhook.Proofs.Json.Units

/-!
What a JSON text says apart from how it is laid out. A term holds numbers as they are spelled and
strings by their units, for not all of these have a value; so there is a term for every text of the
grammar, however large its numbers are and however deep its brackets are nested.
-/

namespace PodWebhook.Json

inductive Term where
  | null
  | bool (value : Bool)
  | number (token : Bytes)
  | text (units : List UInt16)
  | array (items : List Term)
  | object (members : List (List UInt16 × Term))

namespace Term

inductive MemberWritten (R : Term → Bytes → Prop) : List UInt16 × Term → Bytes → Prop where
  | mk {key : List UInt16} {term : Term} {name middle gap text : Bytes}
      (hk : UnitsSpelled key name) (hm : Blank middle) (hg : Blank gap) (hv : R term text) :
      MemberWritten R (key, term) (0x22 :: name ++ 0x22 :: middle ++ 0x3a :: gap ++ text)

/-- A text from the first to the last byte of a term. -/
inductive Written : Term → Bytes → Prop where
  | nullWord : Written .null [0x6e, 0x75, 0x6c, 0x6c]
  | trueWord : Written (.bool true) [0x74, 0x72, 0x75, 0x65]
  | falseWord : Written (.bool false) [0x66, 0x61, 0x6c, 0x73, 0x65]
  | number {token : Bytes} (h : NumberToken token) : Written (.number token) token
  | text {units : List UInt16} {body : Bytes} (h : UnitsSpelled units body) :
      Written (.text units) (0x22 :: body ++ [0x22])
  | emptyArray {blank : Bytes} (h : Blank blank) : Written (.array []) (0x5b :: blank ++ [0x5d])
  | array {items : List Term} {body : Bytes} (h : Separated Written items body) :
      Written (.array items) (0x5b :: body ++ [0x5d])
  | emptyObject {blank : Bytes} (h : Blank blank) :
      Written (.object []) (0x7b :: blank ++ [0x7d])
  | object {members : List (List UInt16 × Term)} {body : Bytes}
      (h : Separated (MemberWritten Written) members body) :
      Written (.object members) (0x7b :: body ++ [0x7d])

theorem written_plain (s : String) (h : Plain s) :
    Written (.text (unitsOf s)) (0x22 :: Bytes.utf8 s ++ [0x22]) :=
  .text (unitsSpelled_plain h)

theorem memberWritten_plain (key : String) (h : Plain key) {term : Term} {text : Bytes}
    (written : Written term text) :
    MemberWritten Written (unitsOf key, term)
      (0x22 :: Bytes.utf8 key ++ 0x22 :: [] ++ 0x3a :: [] ++ text) :=
  .mk (unitsSpelled_plain h) (by simp [Blank]) (by simp [Blank]) written

def DocumentWritten (term : Term) (bytes : Bytes) : Prop :=
  ∃ before text after, Blank before ∧ Written term text ∧ Blank after ∧
    bytes = before ++ text ++ after

inductive Distinct : Term → Prop where
  | null : Distinct .null
  | bool (value : Bool) : Distinct (.bool value)
  | number (token : Bytes) : Distinct (.number token)
  | text (units : List UInt16) : Distinct (.text units)
  | array {items : List Term} (h : ∀ item ∈ items, Distinct item) : Distinct (.array items)
  | object {members : List (List UInt16 × Term)} (keys : (members.map (·.1)).Nodup)
      (h : ∀ m ∈ members, Distinct m.2) : Distinct (.object members)

/-- The same but for the order of members, in objects at any depth. -/
inductive Reordered : Term → Term → Prop where
  | null : Reordered .null .null
  | bool (value : Bool) : Reordered (.bool value) (.bool value)
  | number (token : Bytes) : Reordered (.number token) (.number token)
  | text (units : List UInt16) : Reordered (.text units) (.text units)
  | array {items others : List Term} (h : List.Forall₂ Reordered items others) :
      Reordered (.array items) (.array others)
  | object {members middle others : List (List UInt16 × Term)}
      (keys : members.map (·.1) = middle.map (·.1))
      (values : List.Forall₂ Reordered (members.map (·.2)) (middle.map (·.2)))
      (order : middle.Perm others) : Reordered (.object members) (.object others)

mutual

theorem reordered_self : (term : Term) → Reordered term term
  | .null => .null
  | .bool value => .bool value
  | .number token => .number token
  | .text units => .text units
  | .array items => .array (reordered_items items)
  | .object members => .object rfl (reordered_values members) (List.Perm.refl _)

theorem reordered_items : (items : List Term) → List.Forall₂ Reordered items items
  | [] => .nil
  | item :: items => .cons (reordered_self item) (reordered_items items)

theorem reordered_values : (members : List (List UInt16 × Term)) →
    List.Forall₂ Reordered (members.map (·.2)) (members.map (·.2))
  | [] => .nil
  | (_, term) :: members => .cons (reordered_self term) (reordered_values members)

end

theorem reordered_perm {members others : List (List UInt16 × Term)} (h : members.Perm others) :
    Reordered (.object members) (.object others) :=
  .object rfl (reordered_values members) h

def isScalar : Term → Bool
  | .array _ | .object _ => false
  | _ => true

/-- The tree of a scalar. Brackets that are not followed cannot be read. -/
def leaf : Term → Node
  | .null => .null 0
  | .bool value => .bool 0 value
  | .number token =>
    match numberOf? token with
    | some n => .number 0 0 n
    | none => .unreadable 0 ⟨.numberOutOfRange, 0⟩
  | .text units =>
    match textOf? units with
    | some s => .text 0 0 s
    | none => .unreadable 0 ⟨.loneSurrogate, 0⟩
  | .array _ | .object _ => .unreadable 0 ⟨.tooDeep, 0⟩

def keyOf (units : List UInt16) : Key :=
  ⟨(textOf? units).elim (.error ⟨.loneSurrogate, 0⟩) .ok, none, 0, 0, 0⟩

/-- The tree of a term in which brackets are followed `depth` deep, its places left open. -/
def tree : (depth : Nat) → Term → Node
  | depth + 1, .array items => .array 0 0 (items.map (tree depth)) (.closed 0)
  | depth + 1, .object members =>
    .object 0 (members.map fun m => (keyOf m.1, tree depth m.2)) (.closed 0)
  | _, term => term.leaf

theorem tree_of_isScalar {term : Term} (h : term.isScalar = true) (depth : Nat) :
    term.tree depth = term.leaf := by
  cases term with
  | array | object => cases h
  | null | bool | number | text => cases depth <;> rfl

theorem name_keyOf (units : List UInt16) : (keyOf units).name.toOption = textOf? units := by
  cases value : textOf? units <;> simp [keyOf, value, Except.toOption]

end Term

end PodWebhook.Json

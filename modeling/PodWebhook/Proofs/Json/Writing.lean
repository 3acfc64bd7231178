import Mathlib.Tactic.IntervalCases
import PodWebhook.Json.Writer
import PodWebhook.Proofs.Json.Ordered
import PodWebhook.Proofs.Json.Parsing

/-!
The written text of a value spells that value. What was written is therefore read back, as long as
its numbers are integers of 64 bits and its members are in order.
-/

namespace PodWebhook.Json

def digitByte (d : Nat) : UInt8 := UInt8.ofNat (0x30 + d)

theorem isDigit_digitByte {d : Nat} (h : d < 10) : Bytes.isDigit (digitByte d) = true := by
  interval_cases d <;> rfl

theorem digit_digitByte {d : Nat} (h : d < 10) : Bytes.digit (digitByte d) = d := by
  interval_cases d <;> rfl

theorem utf8EncodeChar_digitChar {d : Nat} (h : d < 10) :
    String.utf8EncodeChar (Nat.digitChar d) = [digitByte d] := by
  interval_cases d <;> rfl

theorem numeral_digit {d : Nat} (h : d < 10) : Numeral d [digitByte d] where
  digit b hb := by
    rw [List.mem_singleton.mp hb]
    exact isDigit_digitByte h
  nonempty := List.cons_ne_nil _ _
  leading := by interval_cases d <;> decide
  value := by simp [digit_digitByte h]

theorem Numeral.snoc {n d : Nat} {digits : Bytes} (h : Numeral n digits) (positive : 0 < n)
    (hd : d < 10) : Numeral (n * 10 + d) (digits ++ [digitByte d]) where
  digit b hb := by
    rcases List.mem_append.mp hb with before | last
    · exact h.digit b before
    · rw [List.mem_singleton.mp last]
      exact isDigit_digitByte hd
  nonempty := by simp
  leading := by
    rcases h.leading with rfl | head
    · have zero : n = 0 := h.value.symm
      omega
    · cases digits with
      | nil => exact absurd rfl h.nonempty
      | cons b digits => exact .inr head
  value := by
    rw [List.foldl_append, h.value]
    simp [digit_digitByte hd]

theorem numeral_repr (n : Nat) : Numeral n (Bytes.utf8 (Nat.repr n)) := by
  rw [utf8_eq_flatMap, Nat.toList_repr]
  induction n using Nat.strongRecOn with
  | ind n ih =>
      rw [Nat.toDigits_eq_if (by omega)]
      split
      · next small =>
        simpa [utf8EncodeChar_digitChar small] using numeral_digit small
      · next large =>
        have last : n % 10 < 10 := Nat.mod_lt n (by omega)
        have front := (ih (n / 10) (by omega)).snoc (by omega) last
        have whole : n / 10 * 10 + n % 10 = n := Nat.div_add_mod' n 10
        rw [whole] at front
        simpa [utf8EncodeChar_digitChar last] using front

theorem spelled_integer {value : Int} (h : Number.fits value = true) :
    Spelled (.number (.int value)) (Bytes.utf8 (Number.int value).toText) := by
  simp only [Number.fits, Bool.and_eq_true, decide_eq_true_eq] at h
  cases value with
  | ofNat n =>
      have bound : Within64 false n := by
        have below := h.2
        rw [Int.ofNat_eq_natCast] at below
        simp only [Within64, Bool.false_eq_true, if_false]
        omega
      exact .number (numeral_repr n) bound
  | negSucc n =>
      have bound : Within64 true (n + 1) := by
        have := h.1
        simp only [Within64, if_true]
        omega
      have spelled := Spelled.number (numeral_repr (n + 1)) bound
      have same : integer true (n + 1) = .int (Int.negSucc n) := by
        have small : ¬ (n + 1 = 0 ∨ 0x8000000000000000 < n + 1) := by
          have := h.1
          omega
        simp only [integer, if_true, if_neg small]
        rfl
      rw [same] at spelled
      have text : Bytes.utf8 (Number.int (Int.negSucc n)).toText =
          signBytes true ++ Bytes.utf8 (Nat.repr (n + 1)) :=
        Bytes.utf8_append "-" (Nat.repr (n + 1))
      rw [text]
      exact spelled

theorem utf8_singleton (c : Char) :
    Bytes.utf8 (String.singleton c) = String.utf8EncodeChar c := by
  simp [utf8_eq_flatMap]

theorem utf8EncodeChar_hexChar {d : Nat} (h : d < 16) :
    ∃ b, String.utf8EncodeChar (hexChar d) = [b] ∧ Bytes.hexDigit? b = some d := by
  interval_cases d <;> exact ⟨_, rfl, rfl⟩

theorem spelled_control {n : Nat} (h : n < 0x20) :
    CharSpelled (Char.ofNat n) (Bytes.utf8
      ("\\u00" ++ (String.singleton (hexChar (n / 16))).push (hexChar (n % 16)))) := by
  obtain ⟨b, hb, high⟩ := utf8EncodeChar_hexChar (d := n / 16) (by omega)
  obtain ⟨c, hc, low⟩ := utf8EncodeChar_hexChar (d := n % 16) (by omega)
  have digits : FourDigits (((0 * 16 + 0) * 16 + n / 16) * 16 + n % 16) [0x30, 0x30, b, c] :=
    .mk rfl rfl high low
  have value : ((0 * 16 + 0) * 16 + n / 16) * 16 + n % 16 = n := by omega
  rw [value] at digits
  have text : Bytes.utf8
      ("\\u00" ++ (String.singleton (hexChar (n / 16))).push (hexChar (n % 16))) =
      0x5c :: 0x75 :: [0x30, 0x30, b, c] := by
    rw [utf8_eq_flatMap]
    simp [hb, hc]
    rfl
  rw [text]
  refine .unit digits ?_ ?_ <;> simp [isLowSurrogate, isHighSurrogate] <;> omega

theorem charSpelled_escape (c : Char) : CharSpelled c (Bytes.utf8 (escape c)) := by
  unfold escape
  split
  iterate 7 exact .letter (by decide)
  next quote backslash _ _ _ _ _ =>
    split
    · next control =>
      have spelled := spelled_control control
      rwa [Char.ofNat_toNat] at spelled
    · next visible =>
      rw [utf8_singleton]
      exact .plain (by omega) quote backslash

theorem utf8_foldl_escape (cs : List Char) (text : String) :
    ∃ body, TextSpelled cs body ∧
      Bytes.utf8 (cs.foldl (fun text c => text ++ escape c) text) = Bytes.utf8 text ++ body := by
  induction cs generalizing text with
  | nil => exact ⟨[], .nil, by simp⟩
  | cons c cs ih =>
      obtain ⟨body, spelled, written⟩ := ih (text ++ escape c)
      refine ⟨Bytes.utf8 (escape c) ++ body, .cons (charSpelled_escape c) spelled, ?_⟩
      rw [List.foldl_cons, written, Bytes.utf8_append, List.append_assoc]

theorem utf8_push (s : String) (c : Char) :
    Bytes.utf8 (s.push c) = Bytes.utf8 s ++ String.utf8EncodeChar c := by
  simp [utf8_eq_flatMap]

theorem utf8_quote (s : String) :
    ∃ body, TextSpelled s.toList body ∧ Bytes.utf8 (quote s) = 0x22 :: body ++ [0x22] := by
  obtain ⟨body, spelled, written⟩ := utf8_foldl_escape s.toList "\""
  refine ⟨body, spelled, ?_⟩
  rw [quote, utf8_push, written]
  rfl

mutual

/-- Every number is an integer of 64 bits. -/
def Integral : Json → Prop
  | .number (.int value) => Number.fits value = true
  | .number (.double _) => False
  | .array items => IntegralItems items
  | .object members => IntegralMembers members
  | _ => True

def IntegralItems : List Json → Prop
  | [] => True
  | item :: items => Integral item ∧ IntegralItems items

def IntegralMembers : List (String × Json) → Prop
  | [] => True
  | (_, value) :: members => Integral value ∧ IntegralMembers members

end

theorem integralItems_iff {items : List Json} :
    IntegralItems items ↔ ∀ item ∈ items, Integral item := by
  induction items with
  | nil => simp [IntegralItems]
  | cons item items ih => simp [IntegralItems, ih]

theorem integralMembers_iff {members : List (String × Json)} :
    IntegralMembers members ↔ ∀ m ∈ members, Integral m.2 := by
  induction members with
  | nil => simp [IntegralMembers]
  | cons m members ih => simp [IntegralMembers, ih]

theorem utf8_memberStart (text key : String) (first : Bool) :
    ∃ name, TextSpelled key.toList name ∧
      Bytes.utf8 (text ++ separator first ++ quote key ++ ":") =
        Bytes.utf8 (text ++ separator first) ++ (0x22 :: name ++ [0x22] ++ [0x3a]) := by
  obtain ⟨name, spelled, written⟩ := utf8_quote key
  refine ⟨name, spelled, ?_⟩
  rw [Bytes.utf8_append, Bytes.utf8_append _ (quote key), written, List.append_assoc]
  rfl

theorem blank_nil : Blank [] := by simp [Blank]

theorem Separated.bare {α : Type} {R : α → Bytes → Prop} {x : α} {text : Bytes} (h : R x text) :
    Separated R [x] text := by
  simpa using Separated.last blank_nil h blank_nil

theorem Separated.comma {α : Type} {R : α → Bytes → Prop} {x : α} {xs : List α}
    {text rest : Bytes} (h : R x text) (tail : Separated R xs rest) :
    Separated R (x :: xs) (text ++ 0x2c :: rest) := by
  simpa using Separated.cons blank_nil h blank_nil tail

mutual

theorem utf8_writeOnto (text : String) : (value : Json) → Integral value →
    ∃ bytes, Spelled value bytes ∧ Bytes.utf8 (writeOnto text value) = Bytes.utf8 text ++ bytes
  | .null, _ => ⟨_, .nullWord, Bytes.utf8_append text "null"⟩
  | .bool true, _ => ⟨_, .trueWord, Bytes.utf8_append text "true"⟩
  | .bool false, _ => ⟨_, .falseWord, Bytes.utf8_append text "false"⟩
  | .number (.int value), h => ⟨_, spelled_integer h, Bytes.utf8_append text _⟩
  | .number (.double _), h => nomatch h
  | .text s, _ => by
      obtain ⟨body, spelled, written⟩ := utf8_quote s
      exact ⟨_, .text spelled, by rw [writeOnto, Bytes.utf8_append, written]⟩
  | .array items, h => by
      by_cases empty : items = []
      · refine ⟨0x5b :: [] ++ [0x5d], by rw [empty]; exact .emptyArray blank_nil, ?_⟩
        rw [empty, writeOnto, writeItems, utf8_push, utf8_push, List.append_assoc]
        rfl
      · obtain ⟨body, spelled, written⟩ := utf8_writeItems (text.push '[') true items empty h
        refine ⟨_, .array spelled, ?_⟩
        rw [writeOnto, utf8_push, written, separator, if_pos rfl, String.append_empty, utf8_push]
        simp
        rfl
  | .object members, h => by
      by_cases empty : members = []
      · refine ⟨0x7b :: [] ++ [0x7d], by rw [empty]; exact .emptyObject blank_nil, ?_⟩
        rw [empty, writeOnto, writeMembers, utf8_push, utf8_push, List.append_assoc]
        rfl
      · obtain ⟨body, spelled, written⟩ :=
          utf8_writeMembers (text.push '\x7b') true members empty h
        refine ⟨_, .object spelled, ?_⟩
        rw [writeOnto, utf8_push, written, separator, if_pos rfl, String.append_empty, utf8_push]
        simp
        rfl

theorem utf8_writeItems (text : String) (first : Bool) : (items : List Json) → items ≠ [] →
    IntegralItems items → ∃ bytes, Separated Spelled items bytes ∧
      Bytes.utf8 (writeItems text first items) = Bytes.utf8 (text ++ separator first) ++ bytes
  | [], nonempty, _ => absurd rfl nonempty
  | item :: items, _, h => by
      obtain ⟨bytes, spelled, written⟩ := utf8_writeOnto (text ++ separator first) item h.1
      by_cases empty : items = []
      · refine ⟨bytes, by rw [empty]; exact .bare spelled, ?_⟩
        rw [empty, writeItems, writeItems, written]
      · obtain ⟨rest, others, more⟩ := utf8_writeItems
          (writeOnto (text ++ separator first) item) false items empty h.2
        refine ⟨_, .comma spelled others, ?_⟩
        rw [writeItems, more, Bytes.utf8_append _ (separator false), written]
        simp
        rfl

theorem utf8_writeMembers (text : String) (first : Bool) : (members : List (String × Json)) →
    members ≠ [] → IntegralMembers members →
    ∃ bytes, Separated (MemberSpelled Spelled) members bytes ∧
      Bytes.utf8 (writeMembers text first members) =
        Bytes.utf8 (text ++ separator first) ++ bytes
  | [], nonempty, _ => absurd rfl nonempty
  | (key, value) :: members, _, h => by
      obtain ⟨name, spelledKey, start⟩ := utf8_memberStart text key first
      obtain ⟨bytes, spelled, written⟩ := utf8_writeOnto
        (text ++ separator first ++ quote key ++ ":") value h.1
      have member := MemberSpelled.mk spelledKey blank_nil blank_nil spelled
      by_cases empty : members = []
      · refine ⟨_, by rw [empty]; exact .bare member, ?_⟩
        rw [empty, writeMembers, writeMembers, written, start]
        simp
      · obtain ⟨rest, others, more⟩ := utf8_writeMembers
          (writeOnto (text ++ separator first ++ quote key ++ ":") value) false members empty h.2
        refine ⟨_, .comma member others, ?_⟩
        rw [writeMembers, more, Bytes.utf8_append _ (separator false), written, start]
        simp
        rfl

end

theorem documentSpelled_compact {value : Json} (h : Integral value) :
    DocumentSpelled value (Bytes.utf8 value.compact) := by
  obtain ⟨bytes, spelled, written⟩ := utf8_writeOnto "" value h
  refine ⟨[], bytes, [], blank_nil, spelled, blank_nil, ?_⟩
  rw [compact, written, List.append_nil]
  rfl

theorem parse_compact {value : Json} (integral : Integral value)
    (deep : value.depth ≤ Document.maxDepth) :
    parse (Bytes.utf8 value.compact) = .ok value.sorted :=
  parse_spelled (documentSpelled_compact integral) deep

end PodWebhook.Json

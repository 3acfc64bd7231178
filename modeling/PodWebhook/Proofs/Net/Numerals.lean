import PodWebhook.Net.Address
import PodWebhook.Proofs.Text.Fronts

/-!
Numerals, and the addresses of four of them. What is read is a numeral of its form that no further
digit follows, and every such numeral is read.
-/

namespace PodWebhook.Net

theorem readChar_eq_some_iff {c : Char} {text rest : List Char} :
    readChar c text = some rest ↔ text = c :: rest := by
  cases text with
  | nil => simp [readChar]
  | cons d text =>
      by_cases same : c = d
      · simp [readChar, same]
      · simp [readChar, same, Ne.symm same]

/-- Digits that stand for a number as a form has it. -/
structure Numeral (form : NumberForm) (digits : List Char) (n : Nat) : Prop where
  nonempty : digits ≠ []
  digit (c : Char) : c ∈ digits → isDigit form.base c = true
  short (most : Nat) : form.maxDigits = some most → digits.length ≤ most
  zero : form.leadingZeros = true ∨ digits.length = 1 ∨ digits.head? ≠ some '0'
  value : valueOf form.base digits = n
  bound : n ≤ form.max

def NoDigit (base : Nat) (rest : List Char) : Prop :=
  ∀ c, rest.head? = some c → isDigit base c = false

section

variable {form : NumberForm} {text rest digits : List Char} {n : Nat}

theorem readNumber_front {found : List Char} (holds : ∀ c ∈ digits, isDigit form.base c = true)
    (stop : NoDigit form.base rest) :
    readNumber form (digits ++ rest) = some (n, found) ↔ Numeral form digits n ∧ found = rest := by
  simp only [readNumber, Text.takeWhile_front holds stop, List.drop_left,
    Option.ite_none_right_eq_some, Bool.not_eq_true', List.isEmpty_eq_false_iff,
    Option.all_eq_true, decide_eq_true_eq]
  constructor
  · rintro ⟨⟨nonempty, short, zero, bound⟩, same⟩
    obtain ⟨rfl, rfl⟩ := Prod.mk.inj (Option.some.inj same)
    exact ⟨⟨nonempty, holds, short, zero, rfl, bound⟩, rfl⟩
  · rintro ⟨⟨nonempty, _, short, zero, rfl, bound⟩, rfl⟩
    exact ⟨⟨nonempty, short, zero, bound⟩, rfl⟩

theorem readNumber_eq_some_iff :
    readNumber form text = some (n, rest) ↔
      ∃ digits, Numeral form digits n ∧ text = digits ++ rest ∧ NoDigit form.base rest := by
  constructor
  · intro h
    obtain ⟨digits, behind, rfl, holds, stop⟩ := Text.exists_front (isDigit form.base) text
    obtain ⟨numeral, rfl⟩ := (readNumber_front holds stop).mp h
    exact ⟨digits, numeral, rfl, stop⟩
  · rintro ⟨digits, numeral, rfl, stop⟩
    exact (readNumber_front numeral.digit stop).mpr ⟨numeral, rfl⟩

theorem noDigit_cons {base : Nat} {c : Char} (h : isDigit base c = false) (rest : List Char) :
    NoDigit base (c :: rest) := by
  intro d first
  exact Option.some.inj first ▸ h

theorem Numeral.not_mem (h : Numeral form digits n) {c : Char}
    (other : isDigit form.base c = false) : c ∉ digits := by
  intro member
  rw [h.digit c member] at other
  cases other

end

namespace Octets

def Spelled (o : Octets) (text : List Char) : Prop :=
  ∃ a b c d, Numeral octetForm a o.a.toNat ∧ Numeral octetForm b o.b.toNat ∧
    Numeral octetForm c o.c.toNat ∧ Numeral octetForm d o.d.toNat ∧
    text = a ++ '.' :: (b ++ '.' :: (c ++ '.' :: d))

theorem numeral_ofNat {digits : List Char} {n : Nat} (h : Numeral octetForm digits n) :
    Numeral octetForm digits (UInt8.ofNat n).toNat := by
  rwa [UInt8.toNat_ofNat_of_lt' (Nat.lt_succ_of_le h.bound)]

theorem read_eq_some_iff {o : Octets} {text rest : List Char} :
    read text = some (o, rest) ↔
      ∃ literal, o.Spelled literal ∧ text = literal ++ rest ∧ NoDigit 10 rest := by
  simp only [read, Option.bind_eq_bind, Option.bind_eq_some_iff, Prod.exists,
    readChar_eq_some_iff, readNumber_eq_some_iff, Option.some.injEq, Prod.mk.injEq]
  constructor
  · rintro ⟨a, _, ⟨as, numeralA, rfl, -⟩, _, rfl, b, _, ⟨bs, numeralB, rfl, -⟩, _, rfl,
      c, _, ⟨cs, numeralC, rfl, -⟩, _, rfl, d, _, ⟨ds, numeralD, rfl, stop⟩, rfl, rfl⟩
    exact ⟨_, ⟨as, bs, cs, ds, numeral_ofNat numeralA, numeral_ofNat numeralB,
      numeral_ofNat numeralC, numeral_ofNat numeralD, rfl⟩, by simp, stop⟩
  · rintro ⟨_, ⟨as, bs, cs, ds, numeralA, numeralB, numeralC, numeralD, rfl⟩, rfl, stop⟩
    have dot (rest : List Char) : NoDigit octetForm.base ('.' :: rest) := noDigit_cons (by rfl) rest
    refine ⟨_, _, ⟨as, numeralA, by simp, dot _⟩, _, rfl, _, _, ⟨bs, numeralB, rfl, dot _⟩, _, rfl,
      _, _, ⟨cs, numeralC, rfl, dot _⟩, _, rfl, _, _, ⟨ds, numeralD, rfl, stop⟩, ?_, rfl⟩
    simp

end Octets

end PodWebhook.Net

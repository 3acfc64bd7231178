import PodWebhook.Bytes

/-!
Base64 with the standard alphabet and padding. Three bytes become four letters; `decode?_encode`
says that decoding gives the bytes back, `padded_encode` that the letters come in fours.
-/

namespace PodWebhook.Base64

def letter (n : Nat) : Char :=
  if n < 26 then Char.ofNat (n + 0x41)
  else if n < 52 then Char.ofNat (n + 0x47)
  else if n < 62 then Char.ofNat (n - 4)
  else if n = 62 then '+'
  else '/'

def value? (c : Char) : Option Nat :=
  if 'A' ≤ c ∧ c ≤ 'Z' then some (c.toNat - 0x41)
  else if 'a' ≤ c ∧ c ≤ 'z' then some (c.toNat - 0x47)
  else if '0' ≤ c ∧ c ≤ '9' then some (c.toNat + 4)
  else if c = '+' then some 62
  else if c = '/' then some 63
  else none

def encodeOnto (text : String) : Bytes → String
  | a :: b :: c :: rest =>
    let n := a.toNat * 0x10000 + b.toNat * 0x100 + c.toNat
    encodeOnto
      ((((text.push (letter (n / 0x40000))).push (letter (n / 0x1000 % 64))).push
        (letter (n / 64 % 64))).push (letter (n % 64))) rest
  | [a, b] =>
    let n := a.toNat * 0x100 + b.toNat
    (((text.push (letter (n / 0x400))).push (letter (n / 16 % 64))).push
      (letter (n * 4 % 64))).push '='
  | [a] =>
    (((text.push (letter (a.toNat / 4))).push (letter (a.toNat * 16 % 64))).push '=').push '='
  | [] => text

def encode (bytes : Bytes) : String := encodeOnto "" bytes

def letters : Bytes → List Char
  | a :: b :: c :: rest =>
    let n := a.toNat * 0x10000 + b.toNat * 0x100 + c.toNat
    letter (n / 0x40000) :: letter (n / 0x1000 % 64) :: letter (n / 64 % 64) ::
      letter (n % 64) :: letters rest
  | [a, b] =>
    let n := a.toNat * 0x100 + b.toNat
    [letter (n / 0x400), letter (n / 16 % 64), letter (n * 4 % 64), '=']
  | [a] => [letter (a.toNat / 4), letter (a.toNat * 16 % 64), '=', '=']
  | [] => []

theorem toList_encodeOnto (text : String) (bytes : Bytes) :
    (encodeOnto text bytes).toList = text.toList ++ letters bytes := by
  fun_induction encodeOnto text bytes with
  | case1 text a b c rest n ih => simp [ih, letters, n]
  | case2 text a b n => simp [letters, n]
  | case3 => simp [letters]
  | case4 => simp [letters]

/-- Decodes letters onto bytes that come last one first. Bits that padding cuts off must be zero. -/
def decodeOnto : List Char → Bytes → Option Bytes
  | [], bytes => some bytes.reverse
  | [a, b, '=', '='], bytes => do
    let n := (← value? a) * 64 + (← value? b)
    if n % 16 = 0 then some ((UInt8.ofNat (n / 16) :: bytes).reverse) else none
  | [a, b, c, '='], bytes => do
    let n := (← value? a) * 0x1000 + (← value? b) * 64 + (← value? c)
    if n % 4 = 0 then
      some ((UInt8.ofNat (n / 4 % 0x100) :: UInt8.ofNat (n / 0x400) :: bytes).reverse)
    else none
  | a :: b :: c :: d :: rest, bytes => do
    let n := (← value? a) * 0x40000 + (← value? b) * 0x1000 + (← value? c) * 64 + (← value? d)
    decodeOnto rest
      (UInt8.ofNat (n % 0x100) :: UInt8.ofNat (n / 0x100 % 0x100) :: UInt8.ofNat (n / 0x10000) ::
        bytes)
  | _, _ => none

def decode? (text : String) : Option Bytes := decodeOnto text.toList []

theorem value?_letter : ∀ n < 64, value? (letter n) = some n := by decide

theorem letter_ne_padding : ∀ n < 64, letter n ≠ '=' := by decide

theorem decodeOnto_letters (bytes done : Bytes) :
    decodeOnto (letters bytes) done = some (done.reverse ++ bytes) := by
  fun_induction letters bytes generalizing done with
  | case1 a b c rest n ih =>
    have ha := a.toNat_lt
    have hb := b.toNat_lt
    have hc := c.toNat_lt
    have last : letter (n % 64) ≠ '=' := letter_ne_padding _ (by omega)
    rw [decodeOnto.eq_def]
    split
    · simp_all
    · simp_all
    · simp_all
    · next h =>
      simp only [List.cons.injEq] at h
      obtain ⟨rfl, rfl, rfl, rfl, rfl⟩ := h
      rw [value?_letter _ (by omega), value?_letter _ (by omega), value?_letter _ (by omega),
        value?_letter _ (by omega)]
      have hn :
          n / 0x40000 * 0x40000 + n / 0x1000 % 64 * 0x1000 + n / 64 % 64 * 64 + n % 64 = n := by
        omega
      simp only [bind, Option.bind, hn, ih]
      have e1 : UInt8.ofNat (n / 0x10000) = a := by
        apply UInt8.toNat_inj.mp; simp; omega
      have e2 : UInt8.ofNat (n / 0x100 % 0x100) = b := by
        apply UInt8.toNat_inj.mp; simp; omega
      have e3 : UInt8.ofNat (n % 0x100) = c := by
        apply UInt8.toNat_inj.mp; simp; omega
      simp [e1, e2, e3]
    · next h => exact absurd rfl (h _ _ _ _ _)
  | case2 a b n =>
    have ha := a.toNat_lt
    have hb := b.toNat_lt
    have third : letter (n * 4 % 64) ≠ '=' := letter_ne_padding _ (by omega)
    have hn : n / 0x400 * 0x1000 + n / 16 % 64 * 64 + n * 4 % 64 = n * 4 := by omega
    have e1 : UInt8.ofNat (n * 4 / 0x400) = a := by
      apply UInt8.toNat_inj.mp; simp; omega
    have e2 : UInt8.ofNat (n * 4 / 4 % 0x100) = b := by
      apply UInt8.toNat_inj.mp; simp; omega
    rw [decodeOnto]
    · rw [value?_letter _ (by omega), value?_letter _ (by omega), value?_letter _ (by omega)]
      simp only [bind, Option.bind, hn, e1, e2, Nat.mul_mod_left, if_true]
      simp
    · simpa using third
  | case3 a =>
    have ha := a.toNat_lt
    have hn : a.toNat / 4 * 64 + a.toNat * 16 % 64 = a.toNat * 16 := by omega
    have e1 : UInt8.ofNat (a.toNat * 16 / 16) = a := by
      apply UInt8.toNat_inj.mp; simp
    rw [decodeOnto, value?_letter _ (by omega), value?_letter _ (by omega)]
    simp only [bind, Option.bind, hn, e1, Nat.mul_mod_left, if_true]
    simp
  | case4 => simp [decodeOnto]

theorem decode?_encode (bytes : Bytes) : decode? (encode bytes) = some bytes := by
  simp [decode?, encode, toList_encodeOnto, decodeOnto_letters]

def alphabet : List Char :=
  "ABCDEFGHIJKLMNOPQRSTUVWXYZabcdefghijklmnopqrstuvwxyz0123456789+/".toList

/-- Letters of the alphabet in fours, of which the last may end in padding. -/
inductive Padded : List Char → Prop where
  | nil : Padded []
  | one {a b : Char} (ha : a ∈ alphabet) (hb : b ∈ alphabet) : Padded [a, b, '=', '=']
  | two {a b c : Char} (ha : a ∈ alphabet) (hb : b ∈ alphabet) (hc : c ∈ alphabet) :
      Padded [a, b, c, '=']
  | four {a b c d : Char} {rest : List Char} (ha : a ∈ alphabet) (hb : b ∈ alphabet)
      (hc : c ∈ alphabet) (hd : d ∈ alphabet) (tail : Padded rest) :
      Padded (a :: b :: c :: d :: rest)

theorem letter_mem_alphabet : ∀ n < 64, letter n ∈ alphabet := by decide

theorem padded_letters (bytes : Bytes) : Padded (letters bytes) := by
  fun_induction letters bytes with
  | case1 a b c rest n ih =>
    have ha := a.toNat_lt
    have hb := b.toNat_lt
    have hc := c.toNat_lt
    refine .four ?_ ?_ ?_ ?_ ih <;> exact letter_mem_alphabet _ (by omega)
  | case2 a b n =>
    have ha := a.toNat_lt
    have hb := b.toNat_lt
    refine .two ?_ ?_ ?_ <;> exact letter_mem_alphabet _ (by omega)
  | case3 a =>
    have ha := a.toNat_lt
    refine .one ?_ ?_ <;> exact letter_mem_alphabet _ (by omega)
  | case4 => exact .nil

theorem padded_encode (bytes : Bytes) : Padded (encode bytes).toList := by
  rw [encode, toList_encodeOnto]
  exact padded_letters bytes

end PodWebhook.Base64

import PodWebhook.Proofs.Json.Spelling

/-!
Reading integers. A numeral that fits 64 bits is read as the integer it stands for, provided that
what follows does not carry the number on.
-/

namespace PodWebhook.Json

/-- Bytes that no number goes on with. -/
def Stops : Bytes → Prop
  | [] => True
  | b :: _ => Bytes.isDigit b = false ∧ (b == 0x2e) = false ∧ isExponentMark b = false

theorem Stops.startsWithDigit {rest : Bytes} (h : Stops rest) : startsWithDigit rest = false := by
  cases rest with
  | nil => rfl
  | cons b rest => exact h.1

theorem Stops.dropDigits {rest : Bytes} (h : Stops rest) (count : Nat) :
    dropDigits rest count = (count, rest) := by
  cases rest with
  | nil => rfl
  | cons b rest => simp [Json.dropDigits, h.1]

def isNumeric (b : UInt8) : Bool := b == 0x2d || Bytes.isDigit b

theorem ne_of_isNumeric {b : UInt8} (hb : isNumeric b = true) (c : UInt8)
    (hc : isNumeric c = false) : (b == c) = false := by
  refine beq_eq_false_iff_ne.mpr fun e => ?_
  rw [e, hc] at hb
  cases hb

theorem isBlank_of_isNumeric {b : UInt8} (h : isNumeric b = true) : Bytes.isBlank b = false := by
  have ne := ne_of_isNumeric h
  simp [Bytes.isBlank, ne 0x20 rfl, ne 0x0a rfl, ne 0x0d rfl, ne 0x09 rfl]

theorem isNumeric_of_isDigit {b : UInt8} (h : Bytes.isDigit b = true) : isNumeric b = true := by
  rw [isNumeric, h, Bool.or_true]

theorem Numeral.exists_cons {n : Nat} {digits : Bytes} (h : Numeral n digits) (negative : Bool) :
    ∃ b rest, signBytes negative ++ digits = b :: rest ∧ isNumeric b = true := by
  cases negative with
  | true => exact ⟨0x2d, digits, rfl, rfl⟩
  | false =>
      cases digits with
      | nil => exact absurd rfl h.nonempty
      | cons b rest => exact ⟨b, rest, rfl, isNumeric_of_isDigit (h.digit b List.mem_cons_self)⟩

theorem le_foldl_digits (digits : Bytes) (n : Nat) :
    n ≤ digits.foldl (fun n b => n * 10 + Bytes.digit b) n := by
  induction digits generalizing n with
  | nil => exact Nat.le_refl n
  | cons b digits ih =>
      have step := ih (n * 10 + Bytes.digit b)
      simp only [List.foldl_cons]
      omega

theorem takeDigits_append {limit : Nat} {digits rest : Bytes}
    (digit : ∀ b ∈ digits, Bytes.isDigit b = true) (stops : Stops rest) (significand count : Nat)
    (bound : digits.foldl (fun n b => n * 10 + Bytes.digit b) significand < limit) :
    takeDigits limit (digits ++ rest) significand count =
      ⟨digits.foldl (fun n b => n * 10 + Bytes.digit b) significand, count + digits.length,
        rest⟩ := by
  induction digits generalizing significand count with
  | nil =>
      cases rest with
      | nil => rfl
      | cons b rest => simp [takeDigits, stops.1]
  | cons b digits ih =>
      have head := digit b List.mem_cons_self
      have tail := ih (fun c hc => digit c (List.mem_cons_of_mem b hc))
        (significand * 10 + Bytes.digit b) (count + 1) bound
      have low := le_foldl_digits digits (significand * 10 + Bytes.digit b)
      have fits : significand * 10 + Bytes.digit b < limit := Nat.lt_of_le_of_lt low bound
      rw [List.cons_append, takeDigits, head]
      simp only [Bool.true_and, decide_eq_true_eq, fits, if_true, tail, List.foldl_cons,
        List.length_cons]
      rw [Nat.add_assoc, Nat.add_comm 1]

theorem Numeral.no_leading_zero {n : Nat} {b : UInt8} {digits rest : Bytes}
    (h : Numeral n (b :: digits)) (stops : Stops rest) :
    (b == 0x30 && startsWithDigit (digits ++ rest)) = false := by
  rcases h.leading with single | nonzero
  · obtain ⟨-, rfl⟩ := List.cons.inj single
    simp [stops.startsWithDigit]
  · have ne : b ≠ 0x30 := fun e => nonzero (by rw [e]; rfl)
    simp [ne]

theorem readMagnitude_numeral {n : Nat} {digits rest : Bytes} (h : Numeral n digits)
    (fits : n < 0x10000000000000000) (stops : Stops rest) (negative : Bool) (pos : Nat) :
    readMagnitude negative (digits ++ rest) pos =
      .ok ⟨integer negative n, rest, pos + digits.length⟩ := by
  have taken := takeDigits_append h.digit stops 0 0 (h.value.symm ▸ fits)
  rw [h.value] at taken
  cases digits with
  | nil => exact absurd rfl h.nonempty
  | cons b digits =>
      have first := h.digit b List.mem_cons_self
      have zero := h.no_leading_zero stops
      rw [List.cons_append] at taken
      rw [List.cons_append, readMagnitude]
      simp only [first, zero, taken, stops.dropDigits, Bool.not_true, Bool.false_eq_true, if_false]
      cases rest with
      | nil => simp
      | cons c rest => simp [stops.2.1, stops.2.2]

theorem readNumber_numeral {n : Nat} {negative : Bool} {digits rest : Bytes} (h : Numeral n digits)
    (fits : Within64 negative n) (stops : Stops rest) (pos : Nat) :
    readNumber (signBytes negative ++ digits ++ rest) pos =
      .ok ⟨integer negative n, rest, pos + (signBytes negative ++ digits).length⟩ := by
  cases negative with
  | true =>
      have bound : n ≤ 0x8000000000000000 := fits
      have read := readMagnitude_numeral h (by omega) stops true (pos + 1)
      rw [show signBytes true ++ digits ++ rest = 0x2d :: (digits ++ rest) from rfl, readNumber,
        read]
      simp only [signBytes, if_true, List.length_append, List.length_cons, List.length_nil]
      congr 2
      omega
  | false =>
      have bound : n < 0x10000000000000000 := fits
      have read := readMagnitude_numeral h bound stops false pos
      rw [show signBytes false ++ digits = digits from rfl]
      cases digits with
      | nil => exact absurd rfl h.nonempty
      | cons b digits =>
          have first := h.digit b List.mem_cons_self
          rw [List.cons_append] at read ⊢
          unfold readNumber
          split
          · next hb =>
            obtain ⟨rfl, -⟩ := List.cons.inj hb
            exact absurd first (by decide)
          · exact read

end PodWebhook.Json

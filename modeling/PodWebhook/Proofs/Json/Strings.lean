import Mathlib.Data.String.Basic
import PodWebhook.Proofs.Json.Spelling

/-!
Reading strings. Whatever way the characters of a string are spelled, `readString` yields the string
and stops behind the closing quote.
-/

namespace PodWebhook.Json

theorem utf8_eq_flatMap (s : String) :
    Bytes.utf8 s = s.toList.flatMap String.utf8EncodeChar := by
  rw [Bytes.utf8, ← String.utf8Encode_toList, List.utf8Encode, List.data_toByteArray]

def Ordinary (b : UInt8) : Prop :=
  (b == 0x22) = false ∧ (b == 0x5c) = false ∧ ¬ b < 0x20

theorem ordinary_of_toNat {b : UInt8} (low : 0x20 ≤ b.toNat) (quote : b.toNat ≠ 0x22)
    (backslash : b.toNat ≠ 0x5c) : Ordinary b := by
  refine ⟨?_, ?_, ?_⟩
  · exact beq_eq_false_iff_ne.mpr fun h => quote (by rw [h]; rfl)
  · exact beq_eq_false_iff_ne.mpr fun h => backslash (by rw [h]; rfl)
  · intro lt
    have : b.toNat < 0x20 := lt
    omega

theorem ordinary_of_mem {c : Char} (visible : 0x20 ≤ c.toNat) (quote : c ≠ '"')
    (backslash : c ≠ '\\') {b : UInt8} (h : b ∈ String.utf8EncodeChar c) : Ordinary b := by
  have hq : c.toNat ≠ 0x22 := fun e => quote (Char.ext (UInt32.toNat_inj.mp e))
  have hb : c.toNat ≠ 0x5c := fun e => backslash (Char.ext (UInt32.toNat_inj.mp e))
  have value : c.val.toNat = c.toNat := rfl
  simp only [String.utf8EncodeChar, value] at h
  split at h
  · next small =>
    obtain rfl := List.mem_singleton.mp h
    have same : (UInt8.ofNat c.toNat).toNat = c.toNat := by simp; omega
    exact ordinary_of_toNat (by omega) (by omega) (by omega)
  -- bytes of longer sequences are 0x80 and above
  · have large : ∀ n, 0x80 ≤ n → n < 0x100 → Ordinary (UInt8.ofNat n) := by
      intro n low high
      have same : (UInt8.ofNat n).toNat = n := by simp; omega
      exact ordinary_of_toNat (by omega) (by omega) (by omega)
    split at h
    · simp only [List.mem_cons, List.not_mem_nil, or_false] at h
      rcases h with rfl | rfl <;> exact large _ (by omega) (by omega)
    · split at h
      · simp only [List.mem_cons, List.not_mem_nil, or_false] at h
        rcases h with rfl | rfl | rfl <;> exact large _ (by omega) (by omega)
      · simp only [List.mem_cons, List.not_mem_nil, or_false] at h
        rcases h with rfl | rfl | rfl | rfl <;> exact large _ (by omega) (by omega)

theorem readText_visible {b : UInt8} (h : Ordinary b) (rest : Bytes) (pos : Nat)
    (content : Bytes) :
    readText (b :: rest) pos .plain content = readText rest (pos + 1) .plain (b :: content) := by
  obtain ⟨quote, backslash, control⟩ := h
  rw [readText, quote, backslash, if_neg control]
  rfl

theorem readText_quote (rest : Bytes) (pos : Nat) (content : Bytes) :
    readText (0x22 :: rest) pos .plain content =
      match Bytes.text? content.reverse with
      | some s => .ok ⟨s, rest, pos + 1⟩
      | none => .error ⟨.invalidCodePoint, pos + 1 - invalidCount content.reverse⟩ := rfl

theorem readText_escaped {b c : UInt8} (noUnit : (b == 0x75) = false) (h : unescape b = some c)
    (rest : Bytes) (pos : Nat) (content : Bytes) :
    readText (0x5c :: b :: rest) pos .plain content =
      readText rest (pos + 2) .plain (c :: content) := by
  show readText (b :: rest) (pos + 1) .escaped content = _
  rw [readText, noUnit, h]
  rfl

theorem readText_escapeStart (rest : Bytes) (pos : Nat) (content : Bytes) :
    readText (0x5c :: 0x75 :: rest) pos .plain content =
      readText rest (pos + 2) (.hex none 3 (some 0)) content := rfl

theorem readText_paired_escapeStart (high : Nat) (rest : Bytes) (pos : Nat) (content : Bytes) :
    readText (0x5c :: 0x75 :: rest) pos (.paired high) content =
      readText rest (pos + 2) (.hex (some high) 3 (some 0)) content := rfl

theorem readText_hexDigit (b : UInt8) (lead : Option Nat) (left : Nat) (value : Option Nat)
    (rest : Bytes) (pos : Nat) (content : Bytes) :
    readText (b :: rest) pos (.hex lead (left + 1) value) content =
      readText rest (pos + 1) (.hex lead left (hexStep value b)) content := rfl

theorem readText_ordinary {bytes : Bytes} (h : ∀ b ∈ bytes, Ordinary b) (rest : Bytes) (pos : Nat)
    (content : Bytes) :
    readText (bytes ++ rest) pos .plain content =
      readText rest (pos + bytes.length) .plain (bytes.reverse ++ content) := by
  induction bytes generalizing pos content with
  | nil => rfl
  | cons b bytes ih =>
      have tail := ih fun c hc => h c (List.mem_cons_of_mem b hc)
      rw [List.cons_append, readText_visible (h b List.mem_cons_self), tail]
      simp only [List.length_cons, List.reverse_cons, List.append_assoc, List.singleton_append]
      rw [Nat.add_assoc, Nat.add_comm 1]

theorem readText_letter {c : Char} {b : UInt8} (h : (b, c) ∈ escapeLetters) (rest : Bytes)
    (pos : Nat) (content : Bytes) :
    readText (0x5c :: b :: rest) pos .plain content =
      readText rest (pos + 2) .plain ((String.utf8EncodeChar c).reverse ++ content) := by
  have table : ∀ p ∈ escapeLetters, (p.1 == 0x75) = false ∧
      ∃ e, unescape p.1 = some e ∧ String.utf8EncodeChar p.2 = [e] := by
    intro p hp
    simp only [escapeLetters, List.mem_cons, List.not_mem_nil, or_false] at hp
    rcases hp with rfl | rfl | rfl | rfl | rfl | rfl | rfl | rfl <;> exact ⟨rfl, _, rfl, rfl⟩
  obtain ⟨noUnit, e, he, hc⟩ := table (b, c) h
  rw [hc, readText_escaped noUnit he]
  rfl

theorem hexStep_of_hexDigit {b : UInt8} {d : Nat} (h : Bytes.hexDigit? b = some d) (n : Nat) :
    hexStep (some n) b = some (16 * n + d) := by
  simp [hexStep, h]

theorem readText_digits {n : Nat} {digits : Bytes} (h : FourDigits n digits) (lead : Option Nat)
    (rest : Bytes) (pos : Nat) (content : Bytes) :
    ∃ b m, hexStep (some m) b = some n ∧
      readText (digits ++ rest) pos (.hex lead 3 (some 0)) content =
        readText (b :: rest) (pos + 3) (.hex lead 0 (some m)) content := by
  obtain @⟨a, b, c, d, p, q, r, s, ha, hb, hc, hd⟩ := h
  refine ⟨d, (p * 16 + q) * 16 + r, ?_, ?_⟩
  · rw [hexStep_of_hexDigit hd]
    congr 1
    omega
  · simp only [List.cons_append, List.nil_append, readText_hexDigit, hexStep_of_hexDigit ha,
      hexStep_of_hexDigit hb, hexStep_of_hexDigit hc]
    congr 3
    omega

theorem readText_unitDigits {n : Nat} {digits : Bytes} (h : FourDigits n digits) (rest : Bytes)
    (pos : Nat) (content : Bytes) :
    readText (digits ++ rest) pos (.hex none 3 (some 0)) content =
      if isLowSurrogate n then .error ⟨.loneSurrogate, pos + 4⟩
      else if isHighSurrogate n then readText rest (pos + 4) (.paired n) content
      else readText rest (pos + 4) .plain (encodeReversed n ++ content) := by
  obtain ⟨b, m, hb, hr⟩ := readText_digits h none rest pos content
  simp only [hr, readText, hb]

theorem readText_pairDigits {n : Nat} {digits : Bytes} (h : FourDigits n digits) (high : Nat)
    (rest : Bytes) (pos : Nat) (content : Bytes) :
    readText (digits ++ rest) pos (.hex (some high) 3 (some 0)) content =
      if isLowSurrogate n then
        readText rest (pos + 4) .plain
          (encodeReversed ((high - 0xd800) * 0x400 + (n - 0xdc00) + 0x10000) ++ content)
      else .error ⟨.loneSurrogate, pos + 4⟩ := by
  obtain ⟨b, m, hb, hr⟩ := readText_digits h (some high) rest pos content
  simp only [hr, readText, hb]

theorem readText_unit {n : Nat} {digits : Bytes} (h : FourDigits n digits)
    (low : isLowSurrogate n = false) (high : isHighSurrogate n = false) (rest : Bytes) (pos : Nat)
    (content : Bytes) :
    readText (0x5c :: 0x75 :: digits ++ rest) pos .plain content =
      readText rest (pos + 6) .plain
        ((String.utf8EncodeChar (Char.ofNat n)).reverse ++ content) := by
  rw [List.cons_append, List.cons_append, readText_escapeStart, readText_unitDigits h, low, high]
  rfl

theorem not_low_of_high {n : Nat} (h : isHighSurrogate n = true) : isLowSurrogate n = false := by
  simp only [isHighSurrogate, Bool.and_eq_true, decide_eq_true_eq] at h
  simp only [isLowSurrogate, Bool.and_eq_false_iff, decide_eq_false_iff_not]
  omega

theorem readText_high {n : Nat} {digits : Bytes} (h : FourDigits n digits)
    (high : isHighSurrogate n = true) (rest : Bytes) (pos : Nat) (content : Bytes) :
    readText (0x5c :: 0x75 :: digits ++ rest) pos .plain content =
      readText rest (pos + 6) (.paired n) content := by
  rw [List.cons_append, List.cons_append, readText_escapeStart, readText_unitDigits h,
    not_low_of_high high, high]
  rfl

theorem readText_pair {high low : Nat} {first second : Bytes} (h : FourDigits high first)
    (hh : isHighSurrogate high = true) (l : FourDigits low second)
    (hl : isLowSurrogate low = true) (rest : Bytes) (pos : Nat) (content : Bytes) :
    readText (0x5c :: 0x75 :: first ++ 0x5c :: 0x75 :: second ++ rest) pos .plain content =
      readText rest (pos + 12) .plain
        ((String.utf8EncodeChar
          (Char.ofNat ((high - 0xd800) * 0x400 + (low - 0xdc00) + 0x10000))).reverse ++
            content) := by
  rw [List.append_assoc, readText_high h hh, List.cons_append, List.cons_append,
    readText_paired_escapeStart, readText_pairDigits l, hl]
  rfl

theorem readText_char {c : Char} {text : Bytes} (h : CharSpelled c text) (rest : Bytes)
    (pos : Nat) (content : Bytes) :
    readText (text ++ rest) pos .plain content =
      readText rest (pos + text.length) .plain
        ((String.utf8EncodeChar c).reverse ++ content) := by
  cases h with
  | plain visible quote backslash =>
      exact readText_ordinary (fun b => ordinary_of_mem visible quote backslash) rest pos content
  | letter h => exact readText_letter h rest pos content
  | unit h low high =>
      rw [readText_unit h low high]
      simp [h.length]
  | pair h hh l hl =>
      rw [readText_pair h hh l hl]
      simp [h.length, l.length]

theorem readText_spelled {cs : List Char} {text : Bytes} (h : TextSpelled cs text) (rest : Bytes)
    (pos : Nat) (content : Bytes) :
    readText (text ++ rest) pos .plain content =
      readText rest (pos + text.length) .plain
        ((cs.flatMap String.utf8EncodeChar).reverse ++ content) := by
  induction h generalizing pos content with
  | nil => rfl
  | @cons c cs first more head tail ih =>
      rw [List.append_assoc, readText_char head, ih]
      simp [Nat.add_assoc]

theorem readString_spelled {s : String} {text : Bytes} (h : TextSpelled s.toList text)
    (rest : Bytes) (pos : Nat) :
    readString (text ++ 0x22 :: rest) pos = .ok ⟨s, rest, pos + text.length + 1⟩ := by
  rw [readString, readText_spelled h, readText_quote, List.append_nil, List.reverse_reverse,
    ← utf8_eq_flatMap, Bytes.text?_utf8]

end PodWebhook.Json

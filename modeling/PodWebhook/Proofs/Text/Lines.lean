import Mathlib.Data.String.Basic
import PodWebhook.Json.Number
import PodWebhook.Time.Timestamp

/-!
Texts without a line break. Whatever is quoted stays on its line, whatever it is; so do numbers, and
what is said about an instant that cannot be read.
-/

namespace PodWebhook.Text

def IsBreak (c : Char) : Prop := c = '\n' ∨ c = '\r'

instance : DecidablePred IsBreak := fun _ => inferInstanceAs (Decidable (_ ∨ _))

def OneLine (s : String) : Prop := ∀ c ∈ s.toList, ¬ IsBreak c

@[simp] theorem oneLine_append {a b : String} : OneLine (a ++ b) ↔ OneLine a ∧ OneLine b := by
  rw [OneLine, String.toList_append, List.forall_mem_append]
  rfl

@[simp] theorem oneLine_ofList {cs : List Char} :
    OneLine (String.ofList cs) ↔ ∀ c ∈ cs, ¬ IsBreak c := by
  rw [OneLine, String.toList_ofList]

theorem oneLine_literal {cs : List Char} (h : cs.all (fun c => !decide (IsBreak c)) = true) :
    OneLine (String.ofList cs) := by
  simpa using h

theorem oneLine_empty : OneLine "" := oneLine_literal rfl

@[simp] theorem oneLine_singleton {c : Char} : OneLine (String.singleton c) ↔ ¬ IsBreak c := by
  simp [OneLine]

@[simp] theorem oneLine_push {s : String} {c : Char} :
    OneLine (s.push c) ↔ OneLine s ∧ ¬ IsBreak c := by
  simp [OneLine, or_imp, forall_and]

theorem oneLine_ite {p : Prop} [Decidable p] {a b : String} (ha : OneLine a) (hb : OneLine b) :
    OneLine (if p then a else b) := by
  split
  · exact ha
  · exact hb

theorem oneLine_foldl {α : Type} {write : α → String} {xs : List α} {start : String} :
    OneLine (xs.foldl (fun text x => text ++ write x) start) ↔
      OneLine start ∧ ∀ x ∈ xs, OneLine (write x) := by
  induction xs generalizing start with
  | nil => simp
  | cons x xs ih => simp [ih, and_assoc]

theorem oneLine_intercalate {separator : String} (h : OneLine separator) {parts : List String} :
    OneLine (separator.intercalate parts) ↔ ∀ part ∈ parts, OneLine part := by
  induction parts with
  | nil => simp [OneLine]
  | cons part parts ih =>
      cases parts with
      | nil => simp
      | cons second parts =>
          rw [String.intercalate_cons_cons, oneLine_append, oneLine_append, ih, and_iff_left h]
          exact List.forall_mem_cons.symm

/-! Numbers -/

theorem exists_digit {base : Nat} (hb : 1 < base) {n : Nat} {c : Char}
    (h : c ∈ Nat.toDigits base n) : ∃ d, c = Nat.digitChar d := by
  induction n using Nat.strongRecOn with
  | ind n ih =>
      rw [Nat.toDigits_eq_if hb] at h
      split at h
      · exact ⟨n, List.mem_singleton.mp h⟩
      · next large =>
        rcases List.mem_append.mp h with front | last
        · exact ih (n / base) (Nat.div_lt_self (by omega) hb) front
        · exact ⟨n % base, List.mem_singleton.mp last⟩

theorem not_isBreak_digitChar (d : Nat) :
    ¬ IsBreak (Nat.digitChar d) ∧ ¬ IsBreak (Nat.digitChar d).toUpper := by
  rcases lt_or_ge d 16 with small | large
  · decide +revert
  · rw [Nat.digitChar_eq_star.mpr large]
    decide

theorem not_isBreak_toDigits {base : Nat} (hb : 1 < base) (n : Nat) :
    ∀ c ∈ Nat.toDigits base n, ¬ IsBreak c := by
  intro c member
  obtain ⟨d, rfl⟩ := exists_digit hb member
  exact (not_isBreak_digitChar d).1

theorem oneLine_repr (n : Nat) : OneLine (Nat.repr n) := by
  rw [OneLine, Nat.toList_repr]
  exact not_isBreak_toDigits (by decide) n

theorem oneLine_toString_int (n : Int) : OneLine (toString n) := by
  cases n with
  | ofNat n => exact oneLine_repr n
  | negSucc n => exact oneLine_append.mpr ⟨oneLine_literal rfl, oneLine_repr (n + 1)⟩

theorem oneLine_replicate {c : Char} (h : ¬ IsBreak c) (n : Nat) :
    OneLine (String.ofList (List.replicate n c)) := by
  rw [oneLine_ofList]
  intro d member
  rwa [List.eq_of_mem_replicate member]

theorem oneLine_sublist {cs : List Char} {n : Nat} (h : cs.Sublist (Nat.repr n).toList) :
    OneLine (String.ofList cs) :=
  oneLine_ofList.mpr fun c member => oneLine_repr n c (h.subset member)

theorem oneLine_positional (x : Decimal.Scientific) : OneLine x.positional := by
  have zeros := @oneLine_replicate '0' (by decide)
  rw [Decimal.Scientific.positional]
  split
  · exact oneLine_append.mpr ⟨oneLine_repr _, zeros _⟩
  · split <;> simp only [oneLine_append]
    · exact ⟨⟨oneLine_sublist (List.take_sublist ..), oneLine_literal rfl⟩,
        oneLine_sublist (List.drop_sublist ..)⟩
    · exact ⟨⟨oneLine_literal rfl, zeros _⟩, oneLine_repr _⟩

theorem oneLine_layout (x : Decimal.Scientific) : OneLine (Json.Number.layout x) := by
  have fraction (digits : List Char) (h : OneLine (String.ofList digits)) :
      OneLine (if digits.isEmpty then "" else "." ++ String.ofList digits) :=
    oneLine_ite oneLine_empty (oneLine_append.mpr ⟨oneLine_literal rfl, h⟩)
  rw [Json.Number.layout]
  split
  · exact oneLine_append.mpr ⟨oneLine_positional x, oneLine_literal rfl⟩
  · split
    · exact oneLine_positional x
    · simp only [oneLine_append]
      exact ⟨⟨⟨⟨oneLine_sublist (List.take_sublist ..),
        fraction _ (oneLine_sublist (List.drop_sublist ..))⟩, oneLine_literal rfl⟩,
        oneLine_ite (oneLine_literal rfl) (oneLine_literal rfl)⟩, oneLine_repr _⟩

theorem oneLine_doubleText (bits : UInt64) : OneLine (Json.Number.doubleText bits) := by
  rw [Json.Number.doubleText, Json.Number.signedText, oneLine_append]
  exact ⟨oneLine_ite (oneLine_literal rfl) oneLine_empty,
    oneLine_ite (oneLine_literal rfl) (oneLine_layout _)⟩

/-! Quoted text -/

theorem oneLine_hex (n : Nat) : OneLine (hex n) :=
  oneLine_ofList.mpr (not_isBreak_toDigits (by decide) n)

theorem oneLine_quotedChar (c : Char) : OneLine (quotedChar c) := by
  unfold quotedChar
  split
  case h_7 =>
    split
    · exact oneLine_append.mpr
        ⟨oneLine_append.mpr ⟨oneLine_literal rfl, oneLine_hex _⟩, oneLine_literal rfl⟩
    · rw [oneLine_singleton, IsBreak]
      tauto
  all_goals exact oneLine_literal rfl

theorem oneLine_quoted (s : String) : OneLine (quoted s) := by
  rw [quoted, oneLine_push, oneLine_foldl]
  exact ⟨⟨oneLine_literal rfl, fun c _ => oneLine_quotedChar c⟩, by decide⟩

/-! Bytes, and what is said about instants -/

theorem oneLine_hexByte (b : UInt8) : OneLine (hexByte b) := by
  rw [hexByte, oneLine_append, oneLine_append]
  exact ⟨⟨oneLine_literal rfl, oneLine_ite (oneLine_literal rfl) oneLine_empty⟩, oneLine_hex _⟩

theorem oneLine_asciiByte (b : UInt8) : OneLine (asciiByte b) := by
  unfold asciiByte
  split
  case h_7 =>
    split
    · next visible =>
      have shows : ∀ n < 0x100, 0x20 ≤ n → ¬ IsBreak (Char.ofNat n) := by
        decide +kernel
      exact oneLine_singleton.mpr (shows b.toNat b.toNat_lt visible.1)
    · exact oneLine_hexByte b
  all_goals exact oneLine_literal rfl

theorem oneLine_toUpper_hex (n : Nat) : OneLine (hex n).toUpper := by
  rw [String.toUpper, OneLine, String.toList_map, hex, String.toList_ofList]
  refine List.forall_mem_map.mpr fun c member => ?_
  obtain ⟨d, rfl⟩ := exists_digit (by decide) member
  exact (not_isBreak_digitChar d).2

theorem oneLine_shownByte (b : UInt8) : OneLine (shownByte b) := by
  rw [shownByte]
  split
  · exact oneLine_asciiByte b
  · rw [oneLine_append, oneLine_append]
    exact ⟨⟨oneLine_literal rfl, oneLine_ite (oneLine_literal rfl) oneLine_empty⟩,
      oneLine_toUpper_hex _⟩

theorem oneLine_shownOnto {text : String} (h : OneLine text) (skip : Nat) (bytes : Bytes) :
    OneLine (shownOnto text skip bytes) := by
  fun_induction shownOnto text skip bytes with
  | case1 => exact h
  | case2 text skip b rest ih => exact ih h
  | case3 text rest ih => exact ih (oneLine_append.mpr ⟨h, oneLine_literal rfl⟩)
  | case4 text b rest zero ascii ih =>
      exact ih (oneLine_append.mpr ⟨h, oneLine_asciiByte b⟩)
  | case5 text b rest zero ascii c length found ih =>
      exact ih (oneLine_append.mpr ⟨h, oneLine_quotedChar c⟩)
  | case6 text b rest zero ascii none ih =>
      exact ih (oneLine_append.mpr ⟨h, oneLine_hexByte b⟩)

theorem oneLine_shown (bytes : Bytes) : OneLine (shown bytes) :=
  oneLine_shownOnto oneLine_empty 0 bytes

open Timestamp

theorem oneLine_padded (width n : Nat) : OneLine (padded width n) :=
  oneLine_append.mpr ⟨oneLine_replicate (by decide) _, oneLine_repr n⟩

theorem oneLine_yearText (year : Int) : OneLine (yearText year) :=
  oneLine_ite (oneLine_append.mpr ⟨oneLine_literal rfl, oneLine_padded _ _⟩) (oneLine_padded _ _)

theorem oneLine_offsetText (offset : Int) : OneLine (ReadError.offsetText offset) := by
  have part (n : Nat) : OneLine (":" ++ padded 2 n) :=
    oneLine_append.mpr ⟨oneLine_literal rfl, oneLine_padded _ _⟩
  simp only [ReadError.offsetText, oneLine_append]
  exact ⟨⟨⟨oneLine_ite (oneLine_literal rfl) (oneLine_literal rfl), oneLine_padded _ _⟩,
    oneLine_ite oneLine_empty (part _)⟩, oneLine_ite oneLine_empty (part _)⟩

theorem oneLine_part (part : Part) :
    OneLine part.place ∧ OneLine part.wanted ∧ OneLine part.task ∧ OneLine part.range.1 := by
  cases part <;> and_intros <;> exact oneLine_literal rfl

theorem oneLine_message (error : ReadError) : OneLine error.message := by
  cases error with
  | yearMinusZero | separatorUnwanted | noFraction | timeMissing | offsetMissing
  | unclosedBracket => exact oneLine_literal rfl
  | endOfInput part =>
      have told := oneLine_part part
      change OneLine (_ ++ _ ++ _ ++ _)
      simp only [oneLine_append, told, and_true, true_and]
      and_intros <;> exact oneLine_literal rfl
  | outOfRange part =>
      have told := oneLine_part part
      have int (n : Int) : OneLine n.repr := oneLine_toString_int n
      change OneLine (_ ++ _ ++ _ ++ _ ++ _ ++ _ ++ _ ++ _ ++ _)
      simp only [oneLine_append, told, int, and_true, true_and]
      exact ⟨⟨⟨⟨oneLine_literal rfl, oneLine_literal rfl⟩, told.2.2.2⟩, oneLine_literal rfl⟩,
        oneLine_literal rfl⟩
  | notDigit part found =>
      have told := oneLine_part part
      change OneLine (_ ++ _ ++ _ ++ _ ++ _)
      simp only [oneLine_append, told, oneLine_shownByte, and_true, true_and]
      and_intros <;> exact oneLine_literal rfl
  | noSuchDay year month last =>
      change OneLine (_ ++ _ ++ _ ++ _ ++ _ ++ _ ++ _)
      simp only [oneLine_append, oneLine_yearText, oneLine_padded, oneLine_repr, and_true]
      and_intros <;> exact oneLine_literal rfl
  | separatorMissing found =>
      cases found with
      | none => exact oneLine_literal rfl
      | some b =>
          change OneLine (_ ++ _ ++ _)
          simp only [oneLine_append, oneLine_shownByte, and_true]
          and_intros <;> exact oneLine_literal rfl
  | overflow offset =>
      change OneLine (_ ++ _ ++ _ ++ _ ++ _ ++ _)
      simp only [oneLine_append, oneLine_offsetText, and_true]
      and_intros <;> exact oneLine_literal rfl
  | unparsed read left =>
      change OneLine (_ ++ _ ++ _ ++ _ ++ _)
      simp only [oneLine_append, oneLine_shown, and_true]
      and_intros <;> exact oneLine_literal rfl

end PodWebhook.Text

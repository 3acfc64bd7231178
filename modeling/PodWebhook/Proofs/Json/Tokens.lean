import PodWebhook.Proofs.Json.Numerals

/-!
Number tokens of every form: an integer with a fraction and an exponent, as large as they may be.
Some have no value, for they are out of range. Whether a token has one, and which, does not depend
on what follows it, and every token can be skipped.
-/

namespace PodWebhook.Json

structure DigitRun (digits : Bytes) : Prop where
  digit : ∀ b ∈ digits, Bytes.isDigit b = true
  nonempty : digits ≠ []

inductive Fraction : Bytes → Prop where
  | none : Fraction []
  | point {digits : Bytes} (h : DigitRun digits) : Fraction (0x2e :: digits)

inductive Exponent : Bytes → Prop where
  | none : Exponent []
  | mark {b : UInt8} {sign digits : Bytes} (hb : isExponentMark b = true)
      (hs : sign = [] ∨ sign = [0x2b] ∨ sign = [0x2d]) (h : DigitRun digits) :
      Exponent (b :: (sign ++ digits))

inductive MagnitudeToken : Bytes → Prop where
  | mk {whole fraction exponent : Bytes} (h : DigitRun whole)
      (leading : whole = [0x30] ∨ whole.head? ≠ some 0x30) (hf : Fraction fraction)
      (he : Exponent exponent) : MagnitudeToken (whole ++ (fraction ++ exponent))

inductive NumberToken : Bytes → Prop where
  | mk {negative : Bool} {magnitude : Bytes} (h : MagnitudeToken magnitude) :
      NumberToken (signBytes negative ++ magnitude)

def EndsDigits (rest : Bytes) : Prop := startsWithDigit rest = false

theorem DigitRun.exists_cons {digits : Bytes} (h : DigitRun digits) :
    ∃ b more, digits = b :: more ∧ Bytes.isDigit b = true := by
  cases digits with
  | nil => exact absurd rfl h.nonempty
  | cons b more => exact ⟨b, more, rfl, h.digit b List.mem_cons_self⟩

theorem startsWithDigit_run {digits : Bytes} (h : DigitRun digits) (rest : Bytes) :
    startsWithDigit (digits ++ rest) = true := by
  obtain ⟨b, more, rfl, digit⟩ := h.exists_cons
  exact digit

theorem dropDigits_append {digits rest : Bytes} (h : ∀ b ∈ digits, Bytes.isDigit b = true)
    (ends : EndsDigits rest) (count : Nat) :
    dropDigits (digits ++ rest) count = (count + digits.length, rest) := by
  induction digits generalizing count with
  | nil =>
      cases rest with
      | nil => rfl
      | cons b rest => exact if_neg (Bool.eq_false_iff.mp ends)
  | cons b digits ih =>
      have tail := ih (fun c hc => h c (List.mem_cons_of_mem b hc)) (count + 1)
      rw [List.cons_append, dropDigits, if_pos (h b List.mem_cons_self), tail, List.length_cons,
        Nat.add_assoc, Nat.add_comm 1]

/-- Where the significand is full, the same digits are left, whatever follows them. -/
structure TakesDigits (limit significand : Nat) (digits : Bytes) (n count : Nat) (left : Bytes) :
    Prop where
  length : count + left.length = digits.length
  digit : ∀ b ∈ left, Bytes.isDigit b = true
  reads : ∀ rest before, EndsDigits rest →
    takeDigits limit (digits ++ rest) significand before = ⟨n, before + count, left ++ rest⟩

theorem exists_takesDigits {digits : Bytes} (h : ∀ b ∈ digits, Bytes.isDigit b = true)
    (limit significand : Nat) :
    ∃ n count left, TakesDigits limit significand digits n count left := by
  induction digits generalizing significand with
  | nil =>
      refine ⟨significand, 0, [], rfl, h, fun rest before ends => ?_⟩
      cases rest with
      | nil => rfl
      | cons b rest =>
          have stop : Bytes.isDigit b = false := ends
          simp [takeDigits, stop]
  | cons b digits ih =>
      have first := h b List.mem_cons_self
      by_cases fits : significand * 10 + Bytes.digit b < limit
      · obtain ⟨n, count, left, length, digit, reads⟩ :=
          ih (fun c hc => h c (List.mem_cons_of_mem b hc)) (significand * 10 + Bytes.digit b)
        refine ⟨n, count + 1, left, by simp; omega, digit, fun rest before ends => ?_⟩
        have same := reads rest (before + 1) ends
        rw [List.cons_append, takeDigits, if_pos (by simp [first, fits]), same, Nat.add_assoc,
          Nat.add_comm 1]
      · refine ⟨significand, 0, b :: digits, Nat.zero_add _, h, fun rest before _ => ?_⟩
        rw [List.cons_append, takeDigits, if_neg (by simp [fits])]
        rfl

theorem TakesDigits.reads_all {limit significand n count : Nat} {digits left rest : Bytes}
    (h : TakesDigits limit significand digits n count left) (ends : EndsDigits rest) :
    takeDigits limit (digits ++ rest) significand 0 = ⟨n, count, left ++ rest⟩ := by
  rw [h.reads rest 0 ends, Nat.zero_add]

/-- What a scanner makes of a text, whatever follows that does not carry the number on. -/
inductive Settles (scan : Bytes → Nat → Except Fault (Scanned Number)) (text : Bytes) :
    Option Number → Prop where
  | value {n : Number} (h : ∀ rest pos, Stops rest →
      scan (text ++ rest) pos = .ok ⟨n, rest, pos + text.length⟩) : Settles scan text (some n)
  | none (h : ∀ rest pos, Stops rest → ∃ fault, scan (text ++ rest) pos = .error fault) :
      Settles scan text none

def Settled (scan : Bytes → Nat → Except Fault (Scanned Number)) (text : Bytes) : Prop :=
  ∃ result, Settles scan text result

theorem settled_decimal (negative : Bool) (significand : Nat) (exponent : Int) :
    Settled (decimal negative significand exponent) [] := by
  cases scaled : scale (exponent.natAbs / 308 + 1) (Float.ofNat significand) exponent with
  | none =>
      refine ⟨none, .none fun rest pos _ => ⟨⟨.numberOutOfRange, pos⟩, ?_⟩⟩
      rw [List.nil_append, decimal, scaled]
  | some x =>
      refine ⟨some (signed negative x), .value fun rest pos _ => ?_⟩
      rw [List.nil_append, decimal, scaled]
      rfl

theorem Settled.after {scan next : Bytes → Nat → Except Fault (Scanned Number)}
    {text : Bytes} (h : Settled next text) (part : Bytes)
    (hands : ∀ rest pos, Stops rest →
      scan (part ++ text ++ rest) pos = next (text ++ rest) (pos + part.length)) :
    Settled scan (part ++ text) := by
  obtain ⟨result, settles⟩ := h
  refine ⟨result, ?_⟩
  cases settles with
  | none h =>
      refine .none fun rest pos stops => ?_
      rw [hands rest pos stops]
      exact h rest _ stops
  | value h =>
      refine .value fun rest pos stops => ?_
      rw [hands rest pos stops, h rest _ stops, List.length_append, Nat.add_assoc]

theorem settled_readExponentDigits (negative : Bool) (significand : Nat) (start : Int)
    (down : Bool) {digits : Bytes} (h : DigitRun digits) :
    Settled (readExponentDigits negative significand start down) digits := by
  obtain ⟨n, count, left, takes⟩ := exists_takesDigits h.digit 0x80000000 0
  obtain ⟨b, more, first, digit⟩ := h.exists_cons
  let exponent := clampExponent (start + if down then -(n : Int) else n)
  have opened (rest : Bytes) (pos : Nat) (stops : Stops rest) :
      readExponentDigits negative significand start down (digits ++ rest) pos =
        if startsWithDigit (left ++ rest) then
          if significand ≠ 0 ∧ !down then .error ⟨.numberOutOfRange, pos + count + 1⟩
          else .ok ⟨signed negative 0.0, rest, pos + digits.length⟩
        else decimal negative significand exponent (left ++ rest) (pos + count) := by
    have scan := takes.reads_all stops.startsWithDigit
    have dropped := dropDigits_append takes.digit stops.startsWithDigit 0
    rw [← takes.length, ← Nat.add_assoc]
    rw [first, List.cons_append] at scan ⊢
    simp only [readExponentDigits, digit, if_true, scan, dropped, Nat.zero_add, exponent]
  cases left with
  | nil =>
      rw [← List.append_nil digits]
      refine (settled_decimal negative significand exponent).after digits fun rest pos stops => ?_
      have whole := opened rest pos stops
      rw [List.nil_append, if_neg (by simp [stops.startsWithDigit])] at whole
      rw [List.append_nil, whole, ← takes.length]
      rfl
  | cons c left =>
      have more_left (rest : Bytes) : startsWithDigit (c :: left ++ rest) = true :=
        takes.digit c List.mem_cons_self
      by_cases huge : significand ≠ 0 ∧ !down
      · refine ⟨none, .none fun rest pos stops =>
          ⟨⟨.numberOutOfRange, pos + count + 1⟩, ?_⟩⟩
        rw [opened rest pos stops, if_pos (more_left rest), if_pos huge]
      · refine ⟨some (signed negative 0.0), .value fun rest pos stops => ?_⟩
        rw [opened rest pos stops, if_pos (more_left rest), if_neg huge]

theorem settled_readExponent (negative : Bool) (significand : Nat) (start : Int)
    {sign digits : Bytes} (hs : sign = [] ∨ sign = [0x2b] ∨ sign = [0x2d]) (h : DigitRun digits) :
    Settled (readExponent negative significand start) (sign ++ digits) := by
  have plain := fun down => settled_readExponentDigits negative significand start down h
  rcases hs with rfl | rfl | rfl
  · refine (plain false).after [] fun rest pos _ => ?_
    obtain ⟨b, more, rfl, digit⟩ := h.exists_cons
    unfold readExponent
    split
    · next same =>
      obtain ⟨rfl, -⟩ := List.cons.inj same
      cases digit
    · next same =>
      obtain ⟨rfl, -⟩ := List.cons.inj same
      cases digit
    · rfl
  · exact (plain false).after [0x2b] fun rest pos _ => rfl
  · exact (plain true).after [0x2d] fun rest pos _ => rfl

theorem settled_readScale (negative : Bool) (significand : Nat) (exponent : Int) {text : Bytes}
    (h : Exponent text) : Settled (readScale negative significand exponent) text := by
  cases h with
  | none =>
      refine (settled_decimal negative significand exponent).after [] fun rest pos stops => ?_
      cases rest with
      | nil => rfl
      | cons b rest => simp [readScale, stops.2.2]
  | @mark b sign digits hb hs h =>
      refine (settled_readExponent negative significand exponent hs h).after [b]
        fun rest pos _ => ?_
      simp [readScale, hb]

theorem Exponent.endsDigits {exponent rest : Bytes} (h : Exponent exponent) (stops : Stops rest) :
    EndsDigits (exponent ++ rest) := by
  cases h with
  | none => exact stops.startsWithDigit
  | @mark b _ _ hb _ _ =>
      have marks : b = 0x65 ∨ b = 0x45 := by simpa [isExponentMark] using hb
      rcases marks with rfl | rfl <;> rfl

theorem settled_readFraction (negative : Bool) (significand : Nat) (start : Int)
    {digits exponent : Bytes} (h : DigitRun digits) (he : Exponent exponent) :
    Settled (readFraction negative significand start) (digits ++ exponent) := by
  obtain ⟨n, count, left, takes⟩ := exists_takesDigits h.digit 0x10000000000000000 significand
  refine (settled_readScale negative n (start - (count : Int)) he).after digits
    fun rest pos stops => ?_
  have ends := he.endsDigits stops
  have dropped := dropDigits_append takes.digit ends 0
  rw [List.append_assoc, readFraction, takes.reads_all ends, ← takes.length]
  simp only [Nat.zero_add, dropped]
  cases left with
  | nil =>
      have one : count ≠ 0 := by
        rw [show count = digits.length from takes.length]
        exact mt List.eq_nil_of_length_eq_zero h.nonempty
      have plain : ¬ startsWithDigit (exponent ++ rest) = true := Bool.eq_false_iff.mp ends
      rw [List.nil_append, if_neg plain, if_neg one]
      rfl
  | cons c left =>
      have more : startsWithDigit (c :: left ++ (exponent ++ rest)) = true :=
        takes.digit c List.mem_cons_self
      rw [if_pos more, Nat.add_assoc]

theorem Fraction.endsDigits {fraction exponent rest : Bytes} (h : Fraction fraction)
    (he : Exponent exponent) (stops : Stops rest) :
    EndsDigits (fraction ++ exponent ++ rest) := by
  cases h with
  | none => exact he.endsDigits stops
  | point => rfl

theorem no_leading_zero {b : UInt8} {more rest : Bytes}
    (leading : b :: more = [0x30] ∨ (b :: more).head? ≠ some 0x30) (ends : EndsDigits rest) :
    (b == 0x30 && startsWithDigit (more ++ rest)) = false := by
  rcases leading with single | nonzero
  · obtain ⟨-, rfl⟩ := List.cons.inj single
    rw [List.nil_append, show startsWithDigit rest = false from ends, Bool.and_false]
  · have ne : b ≠ 0x30 := fun e => nonzero (by rw [e]; rfl)
    simp [ne]

/-- What is made of the integer part of a number by what follows it; of its digits the last `extra`
ones were too many. -/
def readTail (negative : Bool) (significand extra : Nat) (after : Bytes) (pos : Nat) :
    Except Fault (Scanned Number) :=
  match after with
  | [] =>
    if extra = 0 then .ok ⟨integer negative significand, after, pos⟩
    else decimal negative significand extra after pos
  | c :: tail =>
    if c == 0x2e then readFraction negative significand extra tail (pos + 1)
    else if isExponentMark c then readExponent negative significand extra tail (pos + 1)
    else if extra = 0 then .ok ⟨integer negative significand, after, pos⟩
    else decimal negative significand extra after pos

theorem readTail_stops (negative : Bool) (significand extra : Nat) {rest : Bytes}
    (stops : Stops rest) (pos : Nat) : readTail negative significand extra rest pos =
      if extra = 0 then .ok ⟨integer negative significand, rest, pos⟩
      else decimal negative significand extra rest pos := by
  cases rest with
  | nil => rfl
  | cons b rest => simp only [readTail, stops.2.1, stops.2.2, Bool.false_eq_true, if_false]

theorem settled_readTail (negative : Bool) (significand extra : Nat) {fraction exponent : Bytes}
    (hf : Fraction fraction) (he : Exponent exponent) :
    Settled (readTail negative significand extra) (fraction ++ exponent) := by
  cases hf with
  | @point digits h =>
      exact (settled_readFraction negative significand extra h he).after [0x2e]
        fun rest pos _ => rfl
  | none =>
      cases he with
      | none =>
          by_cases whole : extra = 0
          · refine ⟨some (integer negative significand), .value fun rest pos stops => ?_⟩
            exact (readTail_stops negative significand extra stops pos).trans (if_pos whole)
          · refine (settled_decimal negative significand extra).after [] fun rest pos stops => ?_
            exact (readTail_stops negative significand extra stops pos).trans (if_neg whole)
      | @mark b sign digits hb hs h =>
          refine (settled_readExponent negative significand extra hs h).after [b]
            fun rest pos _ => ?_
          have point : (b == 0x2e) = false := by
            refine beq_eq_false_iff_ne.mpr fun e => ?_
            rw [e] at hb
            cases hb
          simp [readTail, point, hb]

theorem settled_readMagnitude (negative : Bool) {text : Bytes} (h : MagnitudeToken text) :
    Settled (readMagnitude negative) text := by
  obtain @⟨whole, fraction, exponent, h, leading, hf, he⟩ := h
  obtain ⟨n, count, left, takes⟩ := exists_takesDigits h.digit 0x10000000000000000 0
  obtain ⟨b, more, first, digit⟩ := h.exists_cons
  refine (settled_readTail negative n left.length hf he).after whole fun rest pos stops => ?_
  have ends := hf.endsDigits he stops
  have scan := takes.reads_all ends
  have dropped := dropDigits_append takes.digit ends 0
  rw [first] at leading
  have zero := no_leading_zero leading ends
  rw [List.append_assoc, ← takes.length, ← Nat.add_assoc]
  rw [first, List.cons_append] at scan ⊢
  rw [readMagnitude]
  simp only [digit, zero, scan, dropped, Nat.zero_add, Bool.not_true, Bool.false_eq_true, if_false]
  rfl

theorem MagnitudeToken.exists_cons {text : Bytes} (h : MagnitudeToken text) :
    ∃ b more, text = b :: more ∧ Bytes.isDigit b = true := by
  obtain @⟨whole, fraction, exponent, h, -, -, -⟩ := h
  obtain ⟨b, more, rfl, digit⟩ := h.exists_cons
  exact ⟨b, more ++ (fraction ++ exponent), rfl, digit⟩

theorem NumberToken.exists_cons {token : Bytes} (h : NumberToken token) :
    ∃ b rest, token = b :: rest ∧ isNumeric b = true := by
  obtain @⟨negative, magnitude, h⟩ := h
  cases negative with
  | true => exact ⟨0x2d, magnitude, rfl, rfl⟩
  | false =>
      obtain ⟨b, more, rfl, digit⟩ := h.exists_cons
      exact ⟨b, more, rfl, isNumeric_of_isDigit digit⟩

theorem settled_readNumber {token : Bytes} (h : NumberToken token) : Settled readNumber token := by
  obtain @⟨negative, magnitude, h⟩ := h
  cases negative with
  | true => exact (settled_readMagnitude true h).after [0x2d] fun rest pos _ => rfl
  | false =>
      refine (settled_readMagnitude false h).after [] fun rest pos _ => ?_
      obtain ⟨b, more, rfl, digit⟩ := h.exists_cons
      unfold readNumber
      split
      · next same =>
        obtain ⟨rfl, -⟩ := List.cons.inj same
        cases digit
      · rfl

def numberOf? (token : Bytes) : Option Number :=
  match readNumber token 0 with
  | .ok scanned => some scanned.value
  | .error _ => none

/-- What a token is read as is settled by the token alone. -/
theorem settles_readNumber {token : Bytes} (h : NumberToken token) :
    Settles readNumber token (numberOf? token) := by
  obtain ⟨result, settles⟩ := settled_readNumber h
  have same : numberOf? token = result := by
    rw [numberOf?, ← List.append_nil token]
    cases settles with
    | value read => rw [read [] 0 trivial]
    | none fails =>
        obtain ⟨fault, failed⟩ := fails [] 0 trivial
        rw [failed]
  rwa [same]

/-! Skipping -/

def Skips (scan : Bytes → Nat → Except Fault (Bytes × Nat)) (text : Bytes) : Prop :=
  ∀ rest pos, Stops rest → scan (text ++ rest) pos = .ok (rest, pos + text.length)

theorem Skips.after {scan next : Bytes → Nat → Except Fault (Bytes × Nat)} {text : Bytes}
    (h : Skips next text) (part : Bytes)
    (hands : ∀ rest pos, Stops rest →
      scan (part ++ text ++ rest) pos = next (text ++ rest) (pos + part.length)) :
    Skips scan (part ++ text) := by
  intro rest pos stops
  rw [hands rest pos stops, h rest _ stops, List.length_append, Nat.add_assoc]

theorem skips_nothing : Skips (fun bytes pos => .ok (bytes, pos)) [] := fun _ _ _ => rfl

theorem skips_exponent {sign digits : Bytes} (hs : sign = [] ∨ sign = [0x2b] ∨ sign = [0x2d])
    (h : DigitRun digits) : Skips skipExponent (sign ++ digits) := by
  intro rest pos stops
  have dropped := dropDigits_append h.digit stops.startsWithDigit 0
  have start := startsWithDigit_run h rest
  rw [Nat.zero_add] at dropped
  rcases hs with rfl | rfl | rfl
  · obtain ⟨b, more, rfl, digit⟩ := h.exists_cons
    have unsigned : b ≠ 0x2b ∧ b ≠ 0x2d := by
      constructor <;> rintro rfl <;> cases digit
    rw [List.cons_append] at dropped start
    simp only [skipExponent, List.nil_append, List.cons_append]
    split
    · next same => exact absurd (List.cons.inj same).1 unsigned.1
    · next same => exact absurd (List.cons.inj same).1 unsigned.2
    · simp only [start, if_true, dropped]
  · simp only [skipExponent, List.cons_append, List.nil_append, start, if_true, dropped,
      List.length_cons]
    rw [Nat.add_right_comm, Nat.add_assoc]
  · simp only [skipExponent, List.cons_append, List.nil_append, start, if_true, dropped,
      List.length_cons]
    rw [Nat.add_right_comm, Nat.add_assoc]

theorem skips_scale {text : Bytes} (h : Exponent text) : Skips skipScale text := by
  cases h with
  | none =>
      refine skips_nothing.after [] fun rest pos stops => ?_
      cases rest with
      | nil => rfl
      | cons b rest => simp [skipScale, stops.2.2]
  | @mark b sign digits hb hs h =>
      refine (skips_exponent hs h).after [b] fun rest pos _ => ?_
      simp [skipScale, hb]

theorem skips_fraction {digits exponent : Bytes} (h : DigitRun digits) (he : Exponent exponent) :
    Skips skipFraction (digits ++ exponent) := by
  refine (skips_scale he).after digits fun rest pos stops => ?_
  rw [List.append_assoc, skipFraction, if_pos (startsWithDigit_run h _),
    dropDigits_append h.digit (he.endsDigits stops), Nat.zero_add]

def skipTail (after : Bytes) (pos : Nat) : Except Fault (Bytes × Nat) :=
  match after with
  | 0x2e :: tail => skipFraction tail (pos + 1)
  | _ => skipScale after pos

theorem skipTail_of_ne {after : Bytes} (h : after.head? ≠ some 0x2e) (pos : Nat) :
    skipTail after pos = skipScale after pos := by
  unfold skipTail
  split
  · exact absurd rfl h
  · rfl

theorem Exponent.head_ne_point {exponent rest : Bytes} (h : Exponent exponent)
    (stops : Stops rest) : (exponent ++ rest).head? ≠ some 0x2e := by
  cases h with
  | none =>
      cases rest with
      | nil => exact nofun
      | cons b rest => exact fun e => beq_eq_false_iff_ne.mp stops.2.1 (Option.some.inj e)
  | @mark b _ _ hb _ _ =>
      intro (e : some b = some 0x2e)
      rw [Option.some.inj e] at hb
      cases hb

theorem skips_tail {fraction exponent : Bytes} (hf : Fraction fraction) (he : Exponent exponent) :
    Skips skipTail (fraction ++ exponent) := by
  cases hf with
  | point h => exact (skips_fraction h he).after [0x2e] fun rest pos _ => rfl
  | none =>
      exact (skips_scale he).after [] fun rest pos stops =>
        skipTail_of_ne (he.head_ne_point stops) pos

theorem skips_magnitude {text : Bytes} (h : MagnitudeToken text) : Skips skipMagnitude text := by
  obtain @⟨whole, fraction, exponent, h, leading, hf, he⟩ := h
  obtain ⟨b, more, first, digit⟩ := h.exists_cons
  refine (skips_tail hf he).after whole fun rest pos stops => ?_
  have ends := hf.endsDigits he stops
  have dropped := dropDigits_append h.digit ends 0
  rw [first] at leading
  have zero := no_leading_zero leading ends
  rw [Nat.zero_add, first, List.cons_append] at dropped
  rw [List.append_assoc, first, List.cons_append, skipMagnitude]
  simp only [digit, zero, dropped, Bool.not_true, Bool.false_eq_true, if_false]
  rfl

theorem skips_number {token : Bytes} (h : NumberToken token) : Skips skipNumber token := by
  obtain @⟨negative, magnitude, h⟩ := h
  cases negative with
  | true => exact (skips_magnitude h).after [0x2d] fun rest pos _ => rfl
  | false =>
      refine (skips_magnitude h).after [] fun rest pos _ => ?_
      obtain ⟨b, more, rfl, digit⟩ := h.exists_cons
      unfold skipNumber
      split
      · next same =>
        obtain ⟨rfl, -⟩ := List.cons.inj same
        cases digit
      · rfl

end PodWebhook.Json

import PodWebhook.Proofs.Json.Strings

/-!
Strings as a text holds them, which is 16 bits at a time. An escape stands for one unit, and units
need not come out as characters: a string with a surrogate that is not paired can be skipped, but it
has no value. How the units are spelled makes no difference to either.
-/

namespace PodWebhook.Json

def utf16 (c : Char) : List UInt16 :=
  if c.toNat < 0x10000 then [.ofNat c.toNat]
  else
    [.ofNat (0xd800 + (c.toNat - 0x10000) / 0x400), .ofNat (0xdc00 + (c.toNat - 0x10000) % 0x400)]

/-- A character as it is, one after a backslash, or a unit by its digits. -/
inductive PieceSpelled : List UInt16 → Bytes → Prop where
  | plain {c : Char} (visible : 0x20 ≤ c.toNat) (quote : c ≠ '"') (backslash : c ≠ '\\') :
      PieceSpelled (utf16 c) (String.utf8EncodeChar c)
  | letter {c : Char} {b : UInt8} (h : (b, c) ∈ escapeLetters) : PieceSpelled (utf16 c) [0x5c, b]
  | unit {u : UInt16} {digits : Bytes} (h : FourDigits u.toNat digits) :
      PieceSpelled [u] (0x5c :: 0x75 :: digits)

inductive UnitsSpelled : List UInt16 → Bytes → Prop where
  | nil : UnitsSpelled [] []
  | cons {piece units : List UInt16} {first rest : Bytes} (head : PieceSpelled piece first)
      (tail : UnitsSpelled units rest) : UnitsSpelled (piece ++ units) (first ++ rest)

def unitsOf (s : String) : List UInt16 := s.toList.flatMap utf16

def Plain (s : String) : Prop := ∀ c ∈ s.toList, 0x20 ≤ c.toNat ∧ c ≠ '"' ∧ c ≠ '\\'

-- over the characters of `s`: there is an instance that goes over all characters
instance (s : String) : Decidable (Plain s) := List.decidableBAll _ s.toList

theorem unitsSpelled_plain {s : String} (h : Plain s) :
    UnitsSpelled (unitsOf s) (Bytes.utf8 s) := by
  unfold Plain at h
  rw [unitsOf, utf8_eq_flatMap]
  generalize s.toList = cs at h ⊢
  induction cs with
  | nil => exact .nil
  | cons c cs ih =>
      obtain ⟨⟨visible, quote, backslash⟩, rest⟩ := List.forall_mem_cons.mp h
      rw [List.flatMap_cons, List.flatMap_cons]
      exact .cons (.plain visible quote backslash) (ih rest)

def charOfPair (high low : UInt16) : Char :=
  Char.ofNat ((high.toNat - 0xd800) * 0x400 + (low.toNat - 0xdc00) + 0x10000)

def charsOf? : List UInt16 → Option (List Char)
  | [] => some []
  | [u] => if isLowSurrogate u.toNat || isHighSurrogate u.toNat then none else some [.ofNat u.toNat]
  | u :: v :: units =>
    if isLowSurrogate u.toNat then none
    else if isHighSurrogate u.toNat then
      if isLowSurrogate v.toNat then (charsOf? units).map (charOfPair u v :: ·) else none
    else (charsOf? (v :: units)).map (.ofNat u.toNat :: ·)

def textOf? (units : List UInt16) : Option String := (charsOf? units).map String.ofList

theorem charsOf?_cons {u : UInt16} (low : isLowSurrogate u.toNat = false)
    (high : isHighSurrogate u.toNat = false) (units : List UInt16) :
    charsOf? (u :: units) = (charsOf? units).map (.ofNat u.toNat :: ·) := by
  cases units with
  | nil => simp [charsOf?, low, high]
  | cons v units => simp [charsOf?, low, high]

theorem charsOf?_low {u : UInt16} (low : isLowSurrogate u.toNat = true) (units : List UInt16) :
    charsOf? (u :: units) = none := by
  cases units <;> simp [charsOf?, low]

theorem charsOf?_pair {u v : UInt16} (high : isHighSurrogate u.toNat = true)
    (low : isLowSurrogate v.toNat = true) (units : List UInt16) :
    charsOf? (u :: v :: units) = (charsOf? units).map (charOfPair u v :: ·) := by
  simp [charsOf?, not_low_of_high high, high, low]

theorem charsOf?_high {u : UInt16} {units : List UInt16} (high : isHighSurrogate u.toNat = true)
    (unpaired : ∀ v ∈ units.head?, isLowSurrogate v.toNat = false) :
    charsOf? (u :: units) = none := by
  cases units with
  | nil => simp [charsOf?, high]
  | cons v units =>
      simp [charsOf?, not_low_of_high high, high, unpaired v rfl]

theorem toNat_not_surrogate (c : Char) :
    isLowSurrogate c.toNat = false ∧ isHighSurrogate c.toNat = false := by
  have valid : c.toNat < 0xd800 ∨ 0xdfff < c.toNat ∧ c.toNat < 0x110000 := c.valid
  simp only [isLowSurrogate, isHighSurrogate, Bool.and_eq_false_iff, decide_eq_false_iff_not]
  omega

theorem charsOf?_utf16 (c : Char) (units : List UInt16) :
    charsOf? (utf16 c ++ units) = (charsOf? units).map (c :: ·) := by
  have valid : c.toNat < 0xd800 ∨ 0xdfff < c.toNat ∧ c.toNat < 0x110000 := c.valid
  by_cases short : c.toNat < 0x10000
  · have same : (UInt16.ofNat c.toNat).toNat = c.toNat := by simp; omega
    obtain ⟨low, high⟩ := toNat_not_surrogate c
    rw [utf16, if_pos short, List.singleton_append, charsOf?_cons (by rw [same]; exact low)
      (by rw [same]; exact high), same, Char.ofNat_toNat]
  · let high := 0xd800 + (c.toNat - 0x10000) / 0x400
    let low := 0xdc00 + (c.toNat - 0x10000) % 0x400
    have sameHigh : (UInt16.ofNat high).toNat = high := by simp [high]; omega
    have sameLow : (UInt16.ofNat low).toNat = low := by simp [low]; omega
    have isHigh : isHighSurrogate (UInt16.ofNat high).toNat = true := by
      rw [sameHigh, isHighSurrogate]
      simp [high]
      omega
    have isLow : isLowSurrogate (UInt16.ofNat low).toNat = true := by
      rw [sameLow, isLowSurrogate]
      simp [low]
      omega
    have number : (high - 0xd800) * 0x400 + (low - 0xdc00) + 0x10000 = c.toNat := by
      simp only [high, low]
      omega
    rw [utf16, if_neg short]
    refine (charsOf?_pair isHigh isLow units).trans ?_
    rw [charOfPair, sameHigh, sameLow, number, Char.ofNat_toNat]

theorem utf16_head (c : Char) (units : List UInt16) :
    ∀ v ∈ (utf16 c ++ units).head?, isLowSurrogate v.toNat = false := by
  obtain ⟨v, more, e⟩ : ∃ v more, utf16 c = v :: more := by
    unfold utf16
    split <;> exact ⟨_, _, rfl⟩
  have read := charsOf?_utf16 c []
  intro w hw
  obtain rfl : v = w := by simpa [e] using hw
  by_contra low
  rw [e, List.append_nil, charsOf?_low (by simpa using low)] at read
  cases read

theorem toNat_ofNat_of_valid {n : Nat} (valid : n.isValidChar) : (Char.ofNat n).toNat = n := by
  rw [Char.ofNat, dif_pos valid]
  rfl

theorem utf16_ofNat {u : UInt16} (low : isLowSurrogate u.toNat = false)
    (high : isHighSurrogate u.toNat = false) : utf16 (Char.ofNat u.toNat) = [u] := by
  have bound := u.toNat_lt
  have valid : u.toNat.isValidChar := by
    simp only [isLowSurrogate, isHighSurrogate, Bool.and_eq_false_iff,
      decide_eq_false_iff_not] at low high
    unfold Nat.isValidChar
    omega
  rw [utf16, toNat_ofNat_of_valid valid, if_pos bound, UInt16.ofNat_toNat]

theorem utf16_charOfPair {u v : UInt16} (high : isHighSurrogate u.toNat = true)
    (low : isLowSurrogate v.toNat = true) : utf16 (charOfPair u v) = [u, v] := by
  simp only [isLowSurrogate, isHighSurrogate, Bool.and_eq_true, decide_eq_true_eq] at low high
  let n := (u.toNat - 0xd800) * 0x400 + (v.toNat - 0xdc00) + 0x10000
  have valid : n.isValidChar := by
    unfold Nat.isValidChar
    omega
  have first : 0xd800 + (n - 0x10000) / 0x400 = u.toNat := by omega
  have second : 0xdc00 + (n - 0x10000) % 0x400 = v.toNat := by omega
  rw [utf16, charOfPair, toNat_ofNat_of_valid valid, if_neg (by omega)]
  simp only [n] at first second
  rw [first, second, UInt16.ofNat_toNat, UInt16.ofNat_toNat]

theorem utf16_of_charsOf? (units : List UInt16) :
    ∀ cs ∈ charsOf? units, cs.flatMap utf16 = units := by
  induction units using charsOf?.induct with
  | case1 => simp [charsOf?]
  | case2 u lone => simp [charsOf?, lone]
  | case3 u lone =>
      rw [Bool.or_eq_true, not_or, Bool.not_eq_true, Bool.not_eq_true] at lone
      simp [charsOf?, lone, utf16_ofNat]
  | case4 u v units low => simp [charsOf?_low low]
  | case5 u v units low high paired ih =>
      intro cs h
      rw [charsOf?_pair high paired] at h
      obtain ⟨more, read, rfl⟩ := Option.map_eq_some_iff.mp h
      rw [List.flatMap_cons, utf16_charOfPair high paired, ih more read]
      rfl
  | case6 u v units low high alone =>
      rw [charsOf?_high high (by simpa using alone)]
      simp
  | case7 u v units low high ih =>
      rw [Bool.not_eq_true] at low high
      intro cs h
      rw [charsOf?_cons low high] at h
      obtain ⟨more, read, rfl⟩ := Option.map_eq_some_iff.mp h
      rw [List.flatMap_cons, utf16_ofNat low high, ih more read]
      rfl

theorem textOf?_injective {units other : List UInt16} {s : String} (h : textOf? units = some s)
    (same : textOf? other = some s) : units = other := by
  obtain ⟨cs, read, rfl⟩ := Option.map_eq_some_iff.mp h
  obtain ⟨ds, readOther, e⟩ := Option.map_eq_some_iff.mp same
  obtain rfl : ds = cs := String.ofList_injective e
  rw [← utf16_of_charsOf? units ds read, utf16_of_charsOf? other ds readOther]

/-- A string that is refused when it is read, though it has an end. -/
def Unreadable (text : Bytes) : Prop :=
  ∀ rest pos content, ∃ fault, readText (text ++ 0x22 :: rest) pos .plain content = .error fault

theorem Unreadable.after {c : Char} {first text : Bytes} (h : Unreadable text)
    (spelled : CharSpelled c first) : Unreadable (first ++ text) := by
  intro rest pos content
  obtain ⟨fault, fails⟩ := h rest (pos + first.length)
    ((String.utf8EncodeChar c).reverse ++ content)
  exact ⟨fault, by rw [List.append_assoc, readText_char spelled, fails]⟩

theorem readText_lone {n : Nat} {digits : Bytes} (h : FourDigits n digits)
    (low : isLowSurrogate n = true) (rest : Bytes) (pos : Nat) (content : Bytes) :
    ∃ fault, readText (0x5c :: 0x75 :: digits ++ rest) pos .plain content = .error fault := by
  refine ⟨⟨.loneSurrogate, pos + 6⟩, ?_⟩
  rw [List.cons_append, List.cons_append, readText_escapeStart, readText_unitDigits h, low]
  rfl

theorem unreadable_high {n : Nat} {digits text : Bytes} (h : FourDigits n digits)
    (high : isHighSurrogate n = true)
    (unpaired : ∀ rest pos content, ∃ fault,
      readText (text ++ 0x22 :: rest) pos (.paired n) content = .error fault) :
    Unreadable (0x5c :: 0x75 :: digits ++ text) := by
  intro rest pos content
  obtain ⟨fault, fails⟩ := unpaired rest (pos + 6) content
  exact ⟨fault, by rw [List.append_assoc, readText_high h high, fails]⟩

theorem readText_paired_ne {b : UInt8} (h : b ≠ 0x5c) (n : Nat) (rest : Bytes) (pos : Nat)
    (content : Bytes) : ∃ fault, readText (b :: rest) pos (.paired n) content = .error fault :=
  ⟨⟨.unpairedSurrogate, pos + 1⟩, by simp [readText, h]⟩

theorem letter_ne_unit {c : Char} {b : UInt8} (h : (b, c) ∈ escapeLetters) : b ≠ 0x75 := by
  rintro rfl
  simp [escapeLetters] at h

theorem readText_paired_letter {c : Char} {b : UInt8} (h : (b, c) ∈ escapeLetters) (n : Nat)
    (rest : Bytes) (pos : Nat) (content : Bytes) :
    ∃ fault, readText (0x5c :: b :: rest) pos (.paired n) content = .error fault :=
  ⟨⟨.unpairedSurrogate, pos + 1 + 1⟩, by simp [readText, letter_ne_unit h]⟩

theorem readText_paired_unit {n k : Nat} {digits : Bytes} (h : FourDigits k digits)
    (low : isLowSurrogate k = false) (rest : Bytes) (pos : Nat) (content : Bytes) :
    ∃ fault, readText (0x5c :: 0x75 :: digits ++ rest) pos (.paired n) content = .error fault := by
  refine ⟨⟨.loneSurrogate, pos + 6⟩, ?_⟩
  rw [List.cons_append, List.cons_append, readText_paired_escapeStart, readText_pairDigits h, low]
  rfl

theorem exists_cons_utf8EncodeChar (c : Char) : ∃ b rest, String.utf8EncodeChar c = b :: rest := by
  unfold String.utf8EncodeChar
  simp only
  repeat' split
  all_goals exact ⟨_, _, rfl⟩

/-- Units either are a text, and are spelled as one, or cannot be read. -/
def Decided (units : List UInt16) (text : Bytes) : Prop :=
  match charsOf? units with
  | some cs => TextSpelled cs text
  | none => Unreadable text

theorem decided_of_none {units : List UInt16} {text : Bytes} (none : charsOf? units = none)
    (h : Unreadable text) : Decided units text := by
  rw [Decided, none]
  exact h

theorem Decided.after {c : Char} {piece units : List UInt16} {first text : Bytes}
    (h : Decided units text) (spelled : CharSpelled c first)
    (chars : charsOf? (piece ++ units) = (charsOf? units).map (c :: ·)) :
    Decided (piece ++ units) (first ++ text) := by
  rw [Decided, chars]
  rw [Decided] at h
  cases read : charsOf? units with
  | none =>
      rw [read] at h
      exact Unreadable.after h spelled
  | some cs =>
      rw [read] at h
      exact .cons spelled h

theorem Decided.afterHigh {u : UInt16} {piece units : List UInt16} {digits first text : Bytes}
    (h : Decided units text) (spelled : FourDigits u.toNat digits)
    (high : isHighSurrogate u.toNat = true) (head : PieceSpelled piece first) :
    Decided (u :: (piece ++ units)) (0x5c :: 0x75 :: digits ++ (first ++ text)) := by
  cases head with
  | @plain c visible quote backslash =>
      refine decided_of_none (charsOf?_high high (utf16_head c _))
        (unreadable_high spelled high fun rest pos content => ?_)
      obtain ⟨b, more, e⟩ := exists_cons_utf8EncodeChar c
      have plain : Ordinary b := ordinary_of_mem visible quote backslash (e ▸ List.mem_cons_self)
      rw [e]
      exact readText_paired_ne (beq_eq_false_iff_ne.mp plain.2.1) _ _ pos content
  | @letter c b letter =>
      refine decided_of_none (charsOf?_high high (utf16_head c _))
        (unreadable_high spelled high fun rest pos content => ?_)
      exact readText_paired_letter letter _ _ pos content
  | @unit v second low =>
      cases paired : isLowSurrogate v.toNat with
      | false =>
          refine decided_of_none (charsOf?_high high (by simpa using paired))
            (unreadable_high spelled high fun rest pos content => ?_)
          rw [List.append_assoc]
          exact readText_paired_unit low paired _ pos content
      | true =>
          have pair : Decided ([u, v] ++ units) _ :=
            h.after (.pair spelled high low paired) (charsOf?_pair high paired units)
          simpa using pair

/-- What follows a high surrogate is decided together with it, hence the second part. -/
theorem UnitsSpelled.decided_both {units : List UInt16} {text : Bytes}
    (h : UnitsSpelled units text) :
    Decided units text ∧ ∀ {u : UInt16} {digits : Bytes}, FourDigits u.toNat digits →
      isHighSurrogate u.toNat = true → Decided (u :: units) (0x5c :: 0x75 :: digits ++ text) := by
  induction h with
  | nil =>
      refine ⟨.nil, fun spelled high => ?_⟩
      refine decided_of_none (charsOf?_high high nofun)
        (unreadable_high spelled high fun rest pos content => ?_)
      exact readText_paired_ne (by decide) _ rest pos content
  | cons head tail ih =>
      refine ⟨?_, fun spelled high => ih.1.afterHigh spelled high head⟩
      cases head with
      | plain visible quote backslash =>
          exact ih.1.after (.plain visible quote backslash) (charsOf?_utf16 _ _)
      | letter h => exact ih.1.after (.letter h) (charsOf?_utf16 _ _)
      | @unit u digits h =>
          cases low : isLowSurrogate u.toNat with
          | true =>
              refine decided_of_none (charsOf?_low low _) fun rest pos content => ?_
              rw [List.append_assoc]
              exact readText_lone h low _ pos content
          | false =>
              cases high : isHighSurrogate u.toNat with
              | false => exact ih.1.after (.unit h low high) (charsOf?_cons low high _)
              | true => exact ih.2 h high

theorem readString_units {units : List UInt16} {text : Bytes} (h : UnitsSpelled units text)
    (rest : Bytes) (pos : Nat) :
    match textOf? units with
    | some s => readString (text ++ 0x22 :: rest) pos = .ok ⟨s, rest, pos + text.length + 1⟩
    | none => ∃ fault, readString (text ++ 0x22 :: rest) pos = .error fault := by
  have decided := h.decided_both.1
  rw [Decided] at decided
  rw [textOf?]
  cases read : charsOf? units with
  | none =>
      rw [read] at decided
      exact decided rest pos []
  | some cs =>
      rw [read] at decided
      have spelled : TextSpelled (String.ofList cs).toList text := by simpa using decided
      exact readString_spelled spelled rest pos

/-! Skipping -/

theorem skipText_ordinary {bytes : Bytes} (h : ∀ b ∈ bytes, Ordinary b) (rest : Bytes)
    (pos : Nat) :
    skipText (bytes ++ rest) pos .plain = skipText rest (pos + bytes.length) .plain := by
  induction bytes generalizing pos with
  | nil => rfl
  | cons b bytes ih =>
      obtain ⟨quote, backslash, control⟩ := h b List.mem_cons_self
      have tail := ih (fun c hc => h c (List.mem_cons_of_mem b hc)) (pos + 1)
      rw [List.length_cons, Nat.add_comm bytes.length, ← Nat.add_assoc, ← tail]
      simp [skipText, quote, backslash, control]

theorem skipText_unit {n : Nat} {digits : Bytes} (h : FourDigits n digits) (rest : Bytes)
    (pos : Nat) :
    skipText (0x5c :: 0x75 :: digits ++ rest) pos .plain = skipText rest (pos + 6) .plain := by
  obtain @⟨a, b, c, d, p, q, r, s, ha, hb, hc, hd⟩ := h
  simp [skipText, hexStep_of_hexDigit, ha, hb, hc, hd]

theorem skipText_piece {piece : List UInt16} {text : Bytes} (h : PieceSpelled piece text)
    (rest : Bytes) (pos : Nat) :
    skipText (text ++ rest) pos .plain = skipText rest (pos + text.length) .plain := by
  cases h with
  | plain visible quote backslash =>
      exact skipText_ordinary (fun b => ordinary_of_mem visible quote backslash) rest pos
  | @letter c b h =>
      have known : (unescape b).isSome = true := by
        simp only [escapeLetters, List.mem_cons, List.not_mem_nil, or_false, Prod.mk.injEq] at h
        rcases h with ⟨rfl, -⟩ | ⟨rfl, -⟩ | ⟨rfl, -⟩ | ⟨rfl, -⟩ | ⟨rfl, -⟩ | ⟨rfl, -⟩ | ⟨rfl, -⟩ |
          ⟨rfl, -⟩ <;> rfl
      simp [skipText, letter_ne_unit h, known]
  | unit h =>
      rw [skipText_unit h]
      simp [h.length]

theorem skipText_units {units : List UInt16} {text : Bytes} (h : UnitsSpelled units text)
    (rest : Bytes) (pos : Nat) :
    skipText (text ++ 0x22 :: rest) pos .plain = .ok (rest, pos + text.length + 1) := by
  induction h generalizing pos with
  | nil => simp [skipText]
  | cons head _ ih =>
      rw [List.append_assoc, skipText_piece head, ih, List.length_append, Nat.add_assoc pos]

end PodWebhook.Json

import PodWebhook.Proofs.Json.Parsing
import PodWebhook.Proofs.Json.Terms

/-!
Skipping what has been written. `skim` goes over any term, however deep, and twice the number of its
bytes is fuel enough.
-/

namespace PodWebhook.Json

namespace Bracket

def entry : Bracket → Skim
  | list => .value
  | object => .key

def opening : Bracket → UInt8
  | list => 0x5b
  | object => 0x7b

theorem ofOpening?_opening (bracket : Bracket) : ofOpening? bracket.opening = some bracket := by
  cases bracket <;> rfl

theorem isBlank_opening (bracket : Bracket) : Bytes.isBlank bracket.opening = false := by
  cases bracket <;> rfl

theorem isBlank_closing (bracket : Bracket) : Bytes.isBlank bracket.closing = false := by
  cases bracket <;> rfl

theorem stops_closing (bracket : Bracket) (rest : Bytes) : Stops (bracket.closing :: rest) := by
  cases bracket <;> exact ⟨rfl, rfl, rfl⟩

end Bracket

theorem skim_blanks (bracket : Bracket) {blank : Bytes} (h : Blank blank) (fuel : Nat)
    (stack : List Bracket) (rest : Bytes) (pos : Nat) :
    skim (fuel + 1) bracket.entry stack (blank ++ rest) pos =
      skim (fuel + 1) bracket.entry stack rest (pos + blank.length) := by
  cases bracket <;> simp only [Bracket.entry, skim, skipBlanks_append h]

/-- A text that is gone over, blanks before it or not, by at most two steps for every byte. -/
def Passes (entry : Skim) (text : Bytes) : Prop :=
  ∃ used ≤ 2 * text.length, ∀ fuel stack before rest pos, Blank before → Stops rest →
    skim (fuel + used) entry stack (before ++ text ++ rest) pos =
      skim fuel .after stack rest (pos + before.length + text.length)

theorem passes_scalar {b : UInt8} {bytes : Bytes} (blank : Bytes.isBlank b = false)
    (plain : Bracket.ofOpening? b = none)
    (h : ∀ rest pos, Stops rest → skipScalar (b :: (bytes ++ rest)) pos =
      .ok (rest, pos + (bytes.length + 1))) : Passes .value (b :: bytes) := by
  refine ⟨1, by simp; omega, fun fuel stack before rest pos hb stops => ?_⟩
  have split : before ++ b :: bytes ++ rest = before ++ b :: (bytes ++ rest) := by simp
  rw [split, skim, skipBlanks_before hb blank]
  simp only [plain, h rest _ stops, List.length_cons]

theorem passes_word {word : Word} {first : UInt8} {letters : Bytes}
    (h : Word.ofFirst? first = some (word, letters)) : Passes .value (first :: letters) := by
  have plain : Bytes.isBlank first = false ∧ Bracket.ofOpening? first = none ∧
      (first == 0x22) = false ∧ (first == 0x2d || Bytes.isDigit first) = false := by
    unfold Word.ofFirst? at h
    split at h <;> first | exact ⟨rfl, rfl, rfl, rfl⟩ | cases h
  obtain ⟨blank, bracket, quote, number⟩ := plain
  refine passes_scalar blank bracket fun rest pos _ => ?_
  simp only [skipScalar, quote, number, h, Bool.false_eq_true, if_false,
    Word.readLetters_append]
  rw [Nat.add_assoc, Nat.add_comm 1]

theorem passes_number {token : Bytes} (h : NumberToken token) : Passes .value token := by
  have skips := skips_number h
  obtain ⟨b, bytes, rfl, numeric⟩ := h.exists_cons
  have number : (b == 0x2d || Bytes.isDigit b) = true := numeric
  have quote : (b == 0x22) = false := ne_of_isNumeric numeric 0x22 rfl
  have plain : Bracket.ofOpening? b = none := by
    unfold Bracket.ofOpening?
    split
    · cases numeric
    · cases numeric
    · rfl
  refine passes_scalar (isBlank_of_isNumeric numeric) plain fun rest pos stops => ?_
  simp only [skipScalar, quote, number, Bool.false_eq_true, if_false, if_true]
  exact skips rest pos stops

theorem passes_text {units : List UInt16} {body : Bytes} (h : UnitsSpelled units body) :
    Passes .value (0x22 :: (body ++ [0x22])) := by
  refine passes_scalar rfl rfl fun rest pos _ => ?_
  have skipped := skipText_units h rest (pos + 1)
  have opens : skipScalar (0x22 :: (body ++ [0x22] ++ rest)) pos =
      skipText (body ++ [0x22] ++ rest) (pos + 1) .plain := rfl
  rw [opens, List.append_assoc, List.singleton_append, skipped]
  simp
  omega

theorem skipColon_blank {middle : Bytes} (h : Blank middle) (rest : Bytes) (pos : Nat) :
    skipColon (middle ++ 0x3a :: rest) pos = .ok (rest, pos + middle.length + 1) := by
  rw [skipColon, skipBlanks_before h rfl]
  rfl

theorem passes_member {key : List UInt16} {name middle gap text : Bytes}
    (hk : UnitsSpelled key name) (hm : Blank middle) (hg : Blank gap) (hv : Passes .value text) :
    Passes .key (0x22 :: name ++ 0x22 :: middle ++ 0x3a :: gap ++ text) := by
  obtain ⟨used, bound, passes⟩ := hv
  refine ⟨used + 1, by simp; omega, fun fuel stack before rest pos hb stops => ?_⟩
  have split : before ++ (0x22 :: name ++ 0x22 :: middle ++ 0x3a :: gap ++ text) ++ rest =
      before ++ 0x22 :: (name ++ 0x22 :: (middle ++ 0x3a :: (gap ++ text ++ rest))) := by simp
  rw [split, ← Nat.add_assoc, skim, skipBlanks_before hb rfl]
  simp only [show ((0x22 : UInt8) == 0x22) = true from rfl, if_true, skipText_units hk,
    skipColon_blank hm, passes fuel stack gap rest _ hg stops]
  congr 1
  simp
  omega

theorem skim_separated {α : Type} {R : α → Bytes → Prop} {xs : List α} {body : Bytes}
    (bracket : Bracket) (h : Separated R xs body)
    (hp : ∀ x ∈ xs, ∀ text, R x text → text.length ≤ body.length → Passes bracket.entry text) :
    ∃ used ≤ 2 * body.length, ∀ fuel stack rest pos,
      skim (fuel + used + 1) bracket.entry (bracket :: stack) (body ++ bracket.closing :: rest)
          pos =
        skim fuel .after stack rest (pos + body.length + 1) := by
  induction h with
  | @last x before text after hb hv ha =>
      obtain ⟨used, bound, passes⟩ := hp x List.mem_cons_self text hv (by simp; omega)
      refine ⟨used, by simp; omega, fun fuel stack rest pos => ?_⟩
      have split : before ++ text ++ after ++ bracket.closing :: rest =
          before ++ text ++ (after ++ bracket.closing :: rest) := by simp
      rw [split, Nat.add_right_comm, passes (fuel + 1) _ before _ pos hb
        (stops_append ha (bracket.stops_closing rest)), skim,
        skipBlanks_before ha bracket.isBlank_closing]
      simp only [if_true, List.length_append]
      congr 1
      omega
  | @cons x xs before text after more hb hv ha tail ih =>
      obtain ⟨used, bound, passes⟩ := hp x List.mem_cons_self text hv (by simp; omega)
      obtain ⟨others, boundOthers, skims⟩ := ih fun x hx t ht le =>
        hp x (List.mem_cons_of_mem _ hx) t ht (by simp; omega)
      refine ⟨used + others + 1, by simp; omega, fun fuel stack rest pos => ?_⟩
      have split : before ++ text ++ after ++ 0x2c :: more ++ bracket.closing :: rest =
          before ++ text ++ (after ++ 0x2c :: (more ++ bracket.closing :: rest)) := by simp
      have comma : (0x2c : UInt8) ≠ bracket.closing := by cases bracket <;> decide
      have next : (if bracket = .list then Skim.value else .key) = bracket.entry := by
        cases bracket <;> rfl
      have steps : fuel + (used + others + 1) + 1 = fuel + others + 1 + 1 + used := by omega
      rw [split, steps, passes _ _ before _ pos hb (stops_append ha (stops_comma _)), skim,
        skipBlanks_before ha rfl]
      simp only [if_neg comma, show ((0x2c : UInt8) == 0x2c) = true from rfl, if_true, next]
      rw [skims]
      congr 1
      simp
      omega

theorem skim_opened {α : Type} {R : α → Bytes → Prop} {xs : List α} {body : Bytes}
    (bracket : Bracket) (h : Separated R xs body)
    (solid : ∀ x text, R x text → ∃ b rest, text = b :: rest ∧ Bytes.isBlank b = false ∧
      b ≠ bracket.closing)
    (fuel : Nat) (stack : List Bracket) (rest : Bytes) (pos : Nat) :
    skim (fuel + 1 + 1) (.opened bracket) stack (body ++ rest) pos =
      skim (fuel + 1) bracket.entry stack (body ++ rest) pos := by
  have starts : ∃ before b bytes, body = before ++ b :: bytes ∧ Blank before ∧
      Bytes.isBlank b = false ∧ b ≠ bracket.closing := by
    cases h with
    | @last _ before text after hb hv ha =>
        obtain ⟨b, bytes, rfl, blank, ne⟩ := solid _ _ hv
        exact ⟨before, b, bytes ++ after, by simp, hb, blank, ne⟩
    | @cons _ _ before text after more hb hv ha tail =>
        obtain ⟨b, bytes, rfl, blank, ne⟩ := solid _ _ hv
        exact ⟨before, b, bytes ++ after ++ 0x2c :: more, by simp, hb, blank, ne⟩
  obtain ⟨before, b, bytes, rfl, hb, blank, ne⟩ := starts
  rw [List.append_assoc, List.cons_append, skim_blanks bracket hb, skim,
    skipBlanks_before hb blank]
  simp only [if_neg ne]
  cases bracket <;> rfl

theorem passes_brackets {α : Type} {R : α → Bytes → Prop} {xs : List α} {body : Bytes}
    (bracket : Bracket) (h : Blank body ∧ xs = [] ∨ Separated R xs body)
    (solid : ∀ x text, R x text → ∃ b rest, text = b :: rest ∧ Bytes.isBlank b = false ∧
      b ≠ bracket.closing)
    (hp : ∀ x ∈ xs, ∀ text, R x text → text.length ≤ body.length → Passes bracket.entry text) :
    Passes .value (bracket.opening :: body ++ [bracket.closing]) := by
  have start (fuel : Nat) (stack : List Bracket) (before rest : Bytes) (pos : Nat)
      (hb : Blank before) :
      skim (fuel + 1) .value stack
          (before ++ (bracket.opening :: body ++ [bracket.closing]) ++ rest) pos =
        skim fuel (.opened bracket) (bracket :: stack) (body ++ bracket.closing :: rest)
          (pos + before.length + 1) := by
    have split : before ++ (bracket.opening :: body ++ [bracket.closing]) ++ rest =
        before ++ bracket.opening :: (body ++ bracket.closing :: rest) := by simp
    rw [split, skim, skipBlanks_before hb bracket.isBlank_opening]
    simp only [bracket.ofOpening?_opening]
  rcases h with ⟨blank, rfl⟩ | separated
  · have room : 2 ≤ 2 * (bracket.opening :: body ++ [bracket.closing]).length := by
      rw [List.cons_append, List.length_cons]
      omega
    refine ⟨2, room, fun fuel stack before rest pos hb _ => ?_⟩
    rw [start (fuel + 1) stack before rest pos hb, skim,
      skipBlanks_before blank bracket.isBlank_closing]
    simp only [if_true, List.tail_cons]
    congr 1
    simp
    omega
  · obtain ⟨used, bound, skims⟩ := skim_separated bracket separated hp
    refine ⟨used + 3, by simp; omega, fun fuel stack before rest pos hb _ => ?_⟩
    rw [← Nat.add_assoc, start (fuel + used + 2) stack before rest pos hb,
      skim_opened bracket separated solid, skims]
    congr 1
    simp
    omega

namespace Term

theorem Written.solid {term : Term} {text : Bytes} (h : Written term text) : Solid text := by
  cases h with
  | nullWord | trueWord | falseWord | text | emptyArray | array | emptyObject | object =>
      exact ⟨_, _, rfl, rfl, rfl⟩
  | number h =>
      obtain ⟨b, rest, rfl, numeric⟩ := h.exists_cons
      exact solid_numeric numeric rest

/-- The induction is on the length of the text, for what stands between brackets is shorter. -/
theorem Written.passes {term : Term} {text : Bytes} (h : Written term text) :
    Passes .value text := by
  have upTo (n : Nat) : ∀ term text, Written term text → text.length ≤ n →
      Passes .value text := by
    induction n with
    | zero =>
        intro term text h le
        obtain ⟨b, rest, rfl, -⟩ := h.solid
        simp at le
    | succ n ih =>
        intro term text h le
        have items {items : List Term} {body : Bytes} (short : body.length ≤ n)
            (h : Blank body ∧ items = [] ∨ Separated Written items body) :
            Passes .value (0x5b :: body ++ [0x5d]) := by
          refine passes_brackets .list h (fun _ _ h => ?_) fun item _ text h le =>
            ih item text h (by omega)
          obtain ⟨b, rest, e, blank, ne⟩ := h.solid
          exact ⟨b, rest, e, blank, beq_eq_false_iff_ne.mp ne⟩
        have members {members : List (List UInt16 × Term)} {body : Bytes}
            (short : body.length ≤ n)
            (h : Blank body ∧ members = [] ∨ Separated (MemberWritten Written) members body) :
            Passes .value (0x7b :: body ++ [0x7d]) := by
          refine passes_brackets .object h (fun _ _ h => ?_) fun m _ text h le => ?_
          · obtain ⟨⟩ := h
            exact ⟨0x22, _, rfl, rfl, by decide⟩
          · cases h with
            | mk hk hm hg hv =>
                exact passes_member hk hm hg (ih _ _ hv (by simp at le; omega))
        cases h with
        | nullWord => exact @passes_word .null _ _ rfl
        | trueWord => exact @passes_word .true _ _ rfl
        | falseWord => exact @passes_word .false _ _ rfl
        | number h => exact passes_number h
        | text h => exact passes_text h
        | emptyArray hb => exact items (by simp at le; omega) (.inl ⟨hb, rfl⟩)
        | array hs => exact items (by simp at le; omega) (.inr hs)
        | emptyObject hb => exact members (by simp at le; omega) (.inl ⟨hb, rfl⟩)
        | object hs => exact members (by simp at le; omega) (.inr hs)
  exact upTo text.length term text h (Nat.le_refl _)

end Term

end PodWebhook.Json

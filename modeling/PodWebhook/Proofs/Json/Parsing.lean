import PodWebhook.Json.Document
import PodWebhook.Proofs.Json.Numerals
import PodWebhook.Proofs.Json.Strings
import PodWebhook.Proofs.Json.Trees

/-!
From the spelling of a value to its tree: a text that spells a value, nested no deeper than the
reader goes, has a tree without a fault that stands for that value, and nothing is left over.
-/

namespace PodWebhook.Json

open Node Parsed

theorem skipBlanks_append {blank : Bytes} (h : Blank blank) (rest : Bytes) (pos : Nat) :
    Bytes.skipBlanks (blank ++ rest) pos = Bytes.skipBlanks rest (pos + blank.length) := by
  induction blank generalizing pos with
  | nil => rfl
  | cons b blank ih =>
      have tail := ih (fun c hc => h c (List.mem_cons_of_mem b hc)) (pos + 1)
      rw [List.cons_append, Bytes.skipBlanks, if_pos (h b List.mem_cons_self), tail,
        List.length_cons, Nat.add_assoc, Nat.add_comm 1]

theorem skipBlanks_before {blank : Bytes} {b : UInt8} (h : Blank blank)
    (hb : Bytes.isBlank b = false) (rest : Bytes) (pos : Nat) :
    Bytes.skipBlanks (blank ++ b :: rest) pos = (b :: rest, pos + blank.length) := by
  rw [skipBlanks_append h, Bytes.skipBlanks, hb]
  rfl

theorem skipBlanks_all {blank : Bytes} (h : Blank blank) (pos : Nat) :
    Bytes.skipBlanks blank pos = ([], pos + blank.length) := by
  have whole := skipBlanks_append h [] pos
  rwa [List.append_nil] at whole

theorem stops_comma (rest : Bytes) : Stops (0x2c :: rest) := ⟨rfl, rfl, rfl⟩

theorem stops_listEnd (rest : Bytes) : Stops (0x5d :: rest) := ⟨rfl, rfl, rfl⟩

theorem stops_objectEnd (rest : Bytes) : Stops (0x7d :: rest) := ⟨rfl, rfl, rfl⟩

theorem stops_append {blank : Bytes} {b : UInt8} {rest : Bytes} (h : Blank blank)
    (stops : Stops (b :: rest)) : Stops (blank ++ b :: rest) := by
  cases blank with
  | nil => exact stops
  | cons c blank =>
      have space := h c List.mem_cons_self
      simp only [Bytes.isBlank, Bool.or_eq_true, beq_iff_eq] at space
      rcases space with ((rfl | rfl) | rfl) | rfl <;> exact ⟨rfl, rfl, rfl⟩

theorem stops_blank {blank : Bytes} (h : Blank blank) : Stops blank := by
  cases blank with
  | nil => trivial
  | cons c blank =>
      have space := h c List.mem_cons_self
      simp only [Bytes.isBlank, Bool.or_eq_true, beq_iff_eq] at space
      rcases space with ((rfl | rfl) | rfl) | rfl <;> exact ⟨rfl, rfl, rfl⟩

/-- A text that starts with neither a blank nor a closing bracket, as every value does. -/
def Solid (text : Bytes) : Prop :=
  ∃ b rest, text = b :: rest ∧ Bytes.isBlank b = false ∧ (b == 0x5d) = false

theorem solid_numeric {b : UInt8} (h : isNumeric b = true) (rest : Bytes) : Solid (b :: rest) :=
  ⟨b, rest, rfl, isBlank_of_isNumeric h, ne_of_isNumeric h 0x5d rfl⟩

theorem Spelled.solid {value : Json} {text : Bytes} (h : Spelled value text) : Solid text := by
  cases h with
  | nullWord | trueWord | falseWord | text | emptyArray | array | emptyObject | object =>
      exact ⟨_, _, rfl, rfl, rfl⟩
  | @number negative _ _ h _ =>
      obtain ⟨b, rest, e, numeric⟩ := h.exists_cons negative
      exact e ▸ solid_numeric numeric rest

/-- `parse` turns `text`, behind blanks, into a good tree. -/
def Parses (parse : Bytes → Nat → Parsed) (good : Node → Prop) (text : Bytes) : Prop :=
  ∀ before rest pos, Blank before → Stops rest → ∃ node,
    parse (before ++ text ++ rest) pos =
      ⟨node, .ok (rest, pos + before.length + text.length)⟩ ∧ good node

theorem Parses.imp {parse : Bytes → Nat → Parsed} {good better : Node → Prop} {text : Bytes}
    (h : Parses parse good text) (implies : ∀ node, good node → better node) :
    Parses parse better text := by
  intro before rest pos blank stops
  obtain ⟨node, parsed, stands⟩ := h before rest pos blank stops
  exact ⟨node, parsed, implies node stands⟩

theorem Parses.bare {parse : Bytes → Nat → Parsed} {good : Node → Prop} {text rest : Bytes}
    (h : Parses parse good text) (stops : Stops rest) (pos : Nat) :
    ∃ node, parse (text ++ rest) pos = ⟨node, .ok (rest, pos + text.length)⟩ ∧ good node := by
  have none : Blank [] := by simp [Blank]
  simpa using h [] rest pos none stops

def ReadsKey (name : Option String) (text : Bytes) : Prop :=
  ∀ rest pos, ∃ result, readKey (text ++ 0x22 :: rest) pos =
    (result, .ok (rest, pos + text.length + 1)) ∧ result.toOption = name

inductive ParsesMember (parse : Bytes → Nat → Parsed) (name : Option String)
    (good : Node → Prop) : Bytes → Prop where
  | mk {key middle gap text : Bytes} (hk : ReadsKey name key) (hm : Blank middle)
      (hg : Blank gap) (hv : Parses parse good text) :
      ParsesMember parse name good (0x22 :: key ++ 0x22 :: middle ++ 0x3a :: gap ++ text)

inductive Lead : Bool → Bytes → Prop where
  | first : Lead true []
  | next {after : Bytes} (h : Blank after) : Lead false (after ++ [0x2c])

theorem itemsOf_close (parse : Bytes → Nat → Parsed) (fuel : Nat) (first : Bool) {after : Bytes}
    (h : Blank after) (rest : Bytes) (pos : Nat) (nodes : List Node) :
    itemsOf parse (fuel + 1) first (after ++ 0x5d :: rest) pos nodes =
      ⟨nodes.reverse, .closed (pos + after.length + 1),
        .ok (rest, pos + after.length + 1)⟩ := by
  rw [itemsOf, skipBlanks_before h rfl]
  rfl

theorem itemsOf_item {parse : Bytes → Nat → Parsed} {first : Bool}
    {lead before text after rest : Bytes} {pos stop : Nat} {node : Node}
    (hl : Lead first lead) (h : Blank before) (hv : Solid text)
    (parsed : parse (text ++ after) (pos + lead.length + before.length) =
      ⟨node, .ok (rest, stop)⟩)
    (fuel : Nat) (nodes : List Node) :
    itemsOf parse (fuel + 1) first (lead ++ before ++ (text ++ after)) pos nodes =
      itemsOf parse fuel false rest stop (node :: nodes) := by
  obtain ⟨b, bytes, rfl, hb, hc⟩ := hv
  rw [List.cons_append] at parsed ⊢
  cases hl with
  | first =>
      rw [List.nil_append, itemsOf, skipBlanks_before h hb]
      simp only [List.length_nil, Nat.add_zero] at parsed
      simp [hc, parsed]
  | @next blank ha =>
      have split : blank ++ [0x2c] ++ before ++ b :: (bytes ++ after) =
          blank ++ 0x2c :: (before ++ b :: (bytes ++ after)) := by simp
      have place : pos + (blank ++ [0x2c]).length + before.length =
          pos + blank.length + 1 + before.length := by simp; omega
      rw [split, itemsOf, skipBlanks_before ha rfl]
      simp only [show ((0x2c : UInt8) == 0x5d) = false from rfl,
        show ((0x2c : UInt8) == 0x2c) = true from rfl, Bool.false_eq_true, if_false, if_true]
      rw [skipBlanks_before h hb]
      rw [place] at parsed
      simp [hc, parsed]

theorem itemsOf_separated {α : Type} {R : α → Bytes → Prop} {good : α → Node → Prop}
    {parse : Bytes → Nat → Parsed} {items : List α} {body : Bytes} (h : Separated R items body)
    (solid : ∀ item text, R item text → Solid text)
    (hp : ∀ item ∈ items, ∀ text, R item text → text.length ≤ body.length →
      Parses parse (good item) text)
    {first : Bool} {lead : Bytes} (hl : Lead first lead) {fuel : Nat}
    (enough : items.length < fuel) (rest : Bytes) (pos : Nat) (done : List Node) :
    ∃ nodes stop, List.Forall₂ (fun node item => good item node) nodes items ∧
      itemsOf parse fuel first (lead ++ body ++ 0x5d :: rest) pos done =
        ⟨done.reverse ++ nodes, .closed stop,
          .ok (rest, pos + lead.length + body.length + 1)⟩ := by
  induction h generalizing first lead fuel pos done with
  | @last item before text after hb hv ha =>
      obtain ⟨fuel, rfl⟩ : ∃ f, fuel = f + 2 := ⟨fuel - 2, by simp at enough; omega⟩
      have parses := hp item List.mem_cons_self text hv (by simp; omega)
      obtain ⟨node, parsed, stands⟩ := parses.bare (stops_append ha (stops_listEnd rest))
        (pos + lead.length + before.length)
      have split : lead ++ (before ++ text ++ after) ++ 0x5d :: rest =
          lead ++ before ++ (text ++ (after ++ 0x5d :: rest)) := by simp
      rw [split, itemsOf_item hl hb (solid _ _ hv) parsed, itemsOf_close parse fuel false ha]
      refine ⟨[node], pos + lead.length + before.length + text.length + after.length + 1,
        .cons stands .nil, ?_⟩
      simp
      omega
  | @cons item items before text after more hb hv ha tail ih =>
      obtain ⟨fuel, rfl⟩ : ∃ f, fuel = f + 1 := ⟨fuel - 1, by omega⟩
      have parses := hp item List.mem_cons_self text hv (by simp; omega)
      obtain ⟨node, parsed, stands⟩ := parses.bare
        (stops_append ha (stops_comma (more ++ 0x5d :: rest)))
        (pos + lead.length + before.length)
      have others : ∀ x ∈ items, ∀ t, R x t → t.length ≤ more.length →
          Parses parse (good x) t :=
        fun x hx t ht le => hp x (List.mem_cons_of_mem item hx) t ht (by simp; omega)
      obtain ⟨nodes, stop, stand, read⟩ := ih others (.next ha) (by simpa using enough)
        (pos + lead.length + before.length + text.length) (node :: done)
      have split : lead ++ (before ++ text ++ after ++ 0x2c :: more) ++ 0x5d :: rest =
          lead ++ before ++ (text ++ (after ++ 0x2c :: (more ++ 0x5d :: rest))) := by simp
      have again : after ++ 0x2c :: (more ++ 0x5d :: rest) =
          after ++ [0x2c] ++ more ++ 0x5d :: rest := by simp
      rw [split, itemsOf_item hl hb (solid _ _ hv) parsed, again, read]
      refine ⟨node :: nodes, stop, .cons stands stand, ?_⟩
      simp
      omega

theorem membersOf_close (parse : Bytes → Nat → Parsed) (fuel : Nat) (first : Bool) {after : Bytes}
    (h : Blank after) (rest : Bytes) (pos : Nat) (nodes : List (Key × Node)) :
    membersOf parse (fuel + 1) first (after ++ 0x7d :: rest) pos nodes =
      ⟨nodes.reverse, .closed (pos + after.length + 1),
        .ok (rest, pos + after.length + 1)⟩ := by
  rw [membersOf, skipBlanks_before h rfl]
  rfl

theorem readsKey_spelled {key : String} {text : Bytes} (h : TextSpelled key.toList text) :
    ReadsKey (some key) text := by
  intro rest pos
  refine ⟨.ok key, ?_, rfl⟩
  rw [readKey, readString_spelled h]

theorem memberValue_colon (parse : Bytes → Nat → Parsed) {middle : Bytes} (h : Blank middle)
    (rest : Bytes) (pos : Nat) :
    memberValue parse (middle ++ 0x3a :: rest) pos = parse rest (pos + middle.length + 1) := by
  rw [memberValue, skipColon, skipBlanks_before h rfl]
  rfl

theorem membersOf_member {parse : Bytes → Nat → Parsed} {first : Bool}
    {lead before key bytes after : Bytes} {name : Option String} {pos stop : Nat} {node : Node}
    (hl : Lead first lead) (h : Blank before) (hk : ReadsKey name key)
    (parsed : memberValue parse bytes (pos + lead.length + before.length + 1 + key.length + 1) =
      ⟨node, .ok (after, stop)⟩)
    (fuel : Nat) (nodes : List (Key × Node)) :
    ∃ k : Key, k.name.toOption = name ∧ k.unskippable = none ∧
      membersOf parse (fuel + 1) first (lead ++ before ++ 0x22 :: (key ++ 0x22 :: bytes)) pos
          nodes =
        membersOf parse fuel false after stop ((k, node) :: nodes) := by
  let behind := pos + lead.length + before.length + 1 + key.length + 1
  obtain ⟨result, read, shown⟩ := hk bytes (pos + lead.length + before.length + 1)
  refine ⟨⟨result, none, behind, settle bytes behind, settle after stop⟩, shown, rfl, ?_⟩
  cases hl with
  | first =>
      rw [List.nil_append, membersOf, skipBlanks_before h rfl]
      simp only [List.length_nil, Nat.add_zero] at parsed read
      simp [read, parsed, behind]
  | @next blank ha =>
      have split : blank ++ [0x2c] ++ before ++ 0x22 :: (key ++ 0x22 :: bytes) =
          blank ++ 0x2c :: (before ++ 0x22 :: (key ++ 0x22 :: bytes)) := by simp
      have place : pos + (blank ++ [0x2c]).length + before.length =
          pos + blank.length + 1 + before.length := by simp; omega
      rw [split, membersOf, skipBlanks_before ha rfl]
      simp only [show ((0x2c : UInt8) == 0x7d) = false from rfl,
        show ((0x2c : UInt8) == 0x2c) = true from rfl, Bool.false_eq_true, if_false, if_true]
      rw [skipBlanks_before h rfl]
      simp only [place] at parsed read
      simp only [show ((0x22 : UInt8) == 0x22) = true from rfl, if_true, read, parsed, behind,
        place]

theorem membersOf_parsed {parse : Bytes → Nat → Parsed} {first : Bool}
    {lead before text after : Bytes} {name : Option String} {good : Node → Prop} {pos : Nat}
    (hl : Lead first lead) (h : Blank before) (hm : ParsesMember parse name good text)
    (stops : Stops after) (fuel : Nat) (nodes : List (Key × Node)) :
    ∃ m, Named good name m ∧
      membersOf parse (fuel + 1) first (lead ++ before ++ (text ++ after)) pos nodes =
        membersOf parse fuel false after (pos + lead.length + before.length + text.length)
          (m :: nodes) := by
  cases hm with
  | @mk key middle gap text hk hmiddle hg hv =>
      obtain ⟨node, parsed, stands⟩ := hv gap after
        (pos + lead.length + before.length + 1 + key.length + 1 + middle.length + 1) hg stops
      rw [← memberValue_colon parse hmiddle] at parsed
      obtain ⟨k, named, skippable, read⟩ := membersOf_member hl h hk parsed fuel nodes
      refine ⟨(k, node), ⟨named, skippable, stands⟩, ?_⟩
      have split : 0x22 :: key ++ 0x22 :: middle ++ 0x3a :: gap ++ text ++ after =
          0x22 :: (key ++ 0x22 :: (middle ++ 0x3a :: (gap ++ text ++ after))) := by simp
      rw [split, read]
      congr 1
      simp
      omega

theorem membersOf_separated {α : Type} {R : α → Bytes → Prop} {name : α → Option String}
    {good : α → Node → Prop} {parse : Bytes → Nat → Parsed} {members : List α} {body : Bytes}
    (h : Separated R members body)
    (hp : ∀ m ∈ members, ∀ text, R m text → text.length ≤ body.length →
      ParsesMember parse (name m) (good m) text)
    {first : Bool} {lead : Bytes} (hl : Lead first lead) {fuel : Nat}
    (enough : members.length < fuel) (rest : Bytes) (pos : Nat) (done : List (Key × Node)) :
    ∃ nodes stop, List.Forall₂ (fun n m => Named (good m) (name m) n) nodes members ∧
      membersOf parse fuel first (lead ++ body ++ 0x7d :: rest) pos done =
        ⟨done.reverse ++ nodes, .closed stop,
          .ok (rest, pos + lead.length + body.length + 1)⟩ := by
  induction h generalizing first lead fuel pos done with
  | @last m before text after hb hv ha =>
      obtain ⟨fuel, rfl⟩ : ∃ f, fuel = f + 2 := ⟨fuel - 2, by simp at enough; omega⟩
      have parses := hp m List.mem_cons_self text hv (by simp; omega)
      obtain ⟨node, named, read⟩ := membersOf_parsed hl hb parses
        (stops_append ha (stops_objectEnd rest)) (fuel + 1) done
      have split : lead ++ (before ++ text ++ after) ++ 0x7d :: rest =
          lead ++ before ++ (text ++ (after ++ 0x7d :: rest)) := by simp
      rw [split, read, membersOf_close parse fuel false ha]
      refine ⟨[node], pos + lead.length + before.length + text.length + after.length + 1,
        .cons named .nil, ?_⟩
      simp
      omega
  | @cons m members before text after more hb hv ha tail ih =>
      obtain ⟨fuel, rfl⟩ : ∃ f, fuel = f + 1 := ⟨fuel - 1, by omega⟩
      have parses := hp m List.mem_cons_self text hv (by simp; omega)
      obtain ⟨node, named, read⟩ := membersOf_parsed hl hb parses
        (stops_append ha (stops_comma (more ++ 0x7d :: rest))) fuel done
      have others : ∀ x ∈ members, ∀ t, R x t → t.length ≤ more.length →
          ParsesMember parse (name x) (good x) t :=
        fun x hx t ht le => hp x (List.mem_cons_of_mem m hx) t ht (by simp; omega)
      obtain ⟨nodes, stop, stand, tailRead⟩ := ih others (.next ha) (by simpa using enough)
        (pos + lead.length + before.length + text.length) (node :: done)
      have split : lead ++ (before ++ text ++ after ++ 0x2c :: more) ++ 0x7d :: rest =
          lead ++ before ++ (text ++ (after ++ 0x2c :: (more ++ 0x7d :: rest))) := by simp
      have again : after ++ 0x2c :: (more ++ 0x7d :: rest) =
          after ++ [0x2c] ++ more ++ 0x7d :: rest := by simp
      rw [split, read, again, tailRead]
      refine ⟨node :: nodes, stop, .cons named stand, ?_⟩
      simp
      omega

theorem Separated.length_le {α : Type} {R : α → Bytes → Prop} {xs : List α} {body : Bytes}
    (h : Separated R xs body) : xs.length ≤ body.length + 1 := by
  induction h with
  | last _ _ _ => simp
  | cons _ _ _ _ ih =>
      simp
      omega

def wordValue : Word → Json
  | .null => .null
  | .true => .bool true
  | .false => .bool false

theorem Word.readLetters_append (letters rest : Bytes) (pos : Nat) :
    Word.readLetters letters (letters ++ rest) pos = .ok (rest, pos + letters.length) := by
  induction letters generalizing pos with
  | nil => rfl
  | cons l letters ih =>
      rw [List.cons_append, Word.readLetters, if_pos rfl, ih, List.length_cons, Nat.add_assoc,
        Nat.add_comm 1]

theorem parses_word {word : Word} {first : UInt8} {letters : Bytes}
    (array object : Bytes → Nat → Parsed) (h : Word.ofFirst? first = some (word, letters)) :
    Parses (ofValue array object) (·.StandsFor (wordValue word)) (first :: letters) := by
  have plain : Bytes.isBlank first = false ∧ (first == 0x5b) = false ∧ (first == 0x7b) = false ∧
      (first == 0x22) = false ∧ (first == 0x2d || Bytes.isDigit first) = false := by
    unfold Word.ofFirst? at h
    split at h <;> first | exact ⟨rfl, rfl, rfl, rfl, rfl⟩ | cases h
  obtain ⟨blank, list, brace, quote, number⟩ := plain
  intro before rest pos hb _
  have split : before ++ first :: letters ++ rest = before ++ first :: (letters ++ rest) := by simp
  rw [split, ofValue, skipBlanks_before hb blank]
  simp only [list, brace, quote, number, h, Bool.false_eq_true, if_false, ofWord,
    Word.readLetters_append, List.length_cons]
  rw [Nat.add_assoc _ 1, Nat.add_comm 1]
  cases word with
  | null => exact ⟨_, rfl, .null _⟩
  | true => exact ⟨.bool (pos + before.length + (letters.length + 1)) true, rfl, .bool _ _⟩
  | false => exact ⟨.bool (pos + before.length + (letters.length + 1)) false, rfl, .bool _ _⟩

theorem ofValue_quote (array object : Bytes → Nat → Parsed) {before : Bytes} (hb : Blank before)
    (body rest : Bytes) (pos : Nat) :
    ofValue array object (before ++ (0x22 :: body ++ [0x22]) ++ rest) pos =
      ofText (body ++ 0x22 :: rest) (pos + before.length) := by
  have split : before ++ (0x22 :: body ++ [0x22]) ++ rest =
      before ++ 0x22 :: (body ++ 0x22 :: rest) := by simp
  rw [split, ofValue, skipBlanks_before hb rfl]
  rfl

theorem parses_text (array object : Bytes → Nat → Parsed) {s : String} {body : Bytes}
    (h : TextSpelled s.toList body) :
    Parses (ofValue array object) (·.StandsFor (.text s)) (0x22 :: body ++ [0x22]) := by
  intro before rest pos hb _
  refine ⟨.text (pos + before.length) (pos + before.length + 1 + body.length + 1) s, ?_,
    .text _ _ s⟩
  rw [ofValue_quote array object hb]
  simp only [ofText, readString_spelled h]
  simp
  omega

theorem ofValue_numeric (array object : Bytes → Nat → Parsed) {before : Bytes} {b : UInt8}
    (hb : Blank before) (h : isNumeric b = true) (rest : Bytes) (pos : Nat) :
    ofValue array object (before ++ b :: rest) pos =
      ofNumber (b :: rest) (pos + before.length) := by
  have number : (b == 0x2d || Bytes.isDigit b) = true := h
  have ne := ne_of_isNumeric h
  rw [ofValue, skipBlanks_before hb (isBlank_of_isNumeric h)]
  simp only [ne 0x5b rfl, ne 0x7b rfl, ne 0x22 rfl, number, Bool.false_eq_true, if_false, if_true]

theorem parses_number (array object : Bytes → Nat → Parsed) {n : Nat} {negative : Bool}
    {digits : Bytes} (h : Numeral n digits) (fits : Within64 negative n) :
    Parses (ofValue array object) (·.StandsFor (.number (integer negative n)))
      (signBytes negative ++ digits) := by
  intro before rest pos hb stops
  have read := readNumber_numeral h fits stops (pos + before.length)
  let stop := pos + before.length + (signBytes negative ++ digits).length
  refine ⟨.number (pos + before.length) stop (integer negative n), ?_, .number _ _ _⟩
  simp only [stop]
  obtain ⟨b, bytes, e, numeric⟩ := h.exists_cons negative
  rw [e, List.cons_append] at read
  rw [e, List.append_assoc, List.cons_append, ofValue_numeric array object hb numeric, ofNumber,
    read]

/-- Values without brackets need no depth. -/
theorem parses_flat {value : Json} {text : Bytes} (array object : Bytes → Nat → Parsed)
    (h : Spelled value text) (flat : value.depth = 0) :
    Parses (ofValue array object) (·.StandsFor value) text := by
  cases h with
  | nullWord => exact @parses_word .null _ _ array object rfl
  | trueWord => exact @parses_word .true _ _ array object rfl
  | falseWord => exact @parses_word .false _ _ array object rfl
  | number h fits => exact parses_number array object h fits
  | text h => exact parses_text array object h
  | emptyArray | array | emptyObject | object => simp [depth] at flat

theorem parses_list {limit : Nat} {parse : Bytes → Nat → Parsed} {good : List Node → Prop}
    (object : Bytes → Nat → Parsed) {body : Bytes}
    (h : ∀ rest pos, ∃ nodes stop, good nodes ∧
      itemsOf parse limit true (body ++ 0x5d :: rest) pos [] =
        ⟨nodes, .closed stop, .ok (rest, pos + body.length + 1)⟩) :
    Parses (ofValue (ofArray parse limit) object)
      (fun node => ∃ start opened nodes stop,
        node = .array start opened nodes (.closed stop) ∧ good nodes)
      (0x5b :: body ++ [0x5d]) := by
  intro before rest pos hb _
  obtain ⟨nodes, stop, stand, read⟩ := h rest (pos + before.length + 1)
  have split : before ++ (0x5b :: body ++ [0x5d]) ++ rest =
      before ++ 0x5b :: (body ++ 0x5d :: rest) := by simp
  refine ⟨_, ?_, pos + before.length, leave (body ++ 0x5d :: rest) (pos + before.length + 1),
    nodes, stop, rfl, stand⟩
  rw [split, ofValue, skipBlanks_before hb rfl]
  simp only [show ((0x5b : UInt8) == 0x5b) = true from rfl, if_true, ofArray, read]
  simp
  omega

theorem parses_object {limit : Nat} {parse : Bytes → Nat → Parsed}
    {good : List (Key × Node) → Prop} (array : Bytes → Nat → Parsed) {body : Bytes}
    (h : ∀ rest pos, ∃ nodes stop, good nodes ∧
      membersOf parse limit true (body ++ 0x7d :: rest) pos [] =
        ⟨nodes, .closed stop, .ok (rest, pos + body.length + 1)⟩) :
    Parses (ofValue array (ofObject parse limit))
      (fun node => ∃ start nodes stop, node = .object start nodes (.closed stop) ∧ good nodes)
      (0x7b :: body ++ [0x7d]) := by
  intro before rest pos hb _
  obtain ⟨nodes, stop, stand, read⟩ := h rest (pos + before.length + 1)
  have split : before ++ (0x7b :: body ++ [0x7d]) ++ rest =
      before ++ 0x7b :: (body ++ 0x7d :: rest) := by simp
  refine ⟨_, ?_, pos + before.length, nodes, stop, rfl, stand⟩
  rw [split, ofValue, skipBlanks_before hb rfl]
  simp only [show ((0x7b : UInt8) == 0x5b) = false from rfl,
    show ((0x7b : UInt8) == 0x7b) = true from rfl, Bool.false_eq_true, if_false, if_true,
    ofObject, read]
  simp
  omega

theorem parses_items {α : Type} {R : α → Bytes → Prop} {good : α → Node → Prop} {limit : Nat}
    {parse : Bytes → Nat → Parsed} (object : Bytes → Nat → Parsed) {items : List α} {body : Bytes}
    (h : Blank body ∧ items = [] ∨ Separated R items body)
    (solid : ∀ item text, R item text → Solid text)
    (hp : ∀ item ∈ items, ∀ text, R item text → text.length ≤ body.length →
      Parses parse (good item) text)
    (short : body.length + 1 < limit) :
    Parses (ofValue (ofArray parse limit) object)
      (fun node => ∃ start opened nodes stop, node = .array start opened nodes (.closed stop) ∧
        List.Forall₂ (fun node item => good item node) nodes items)
      (0x5b :: body ++ [0x5d]) := by
  refine parses_list object fun rest pos => ?_
  rcases h with ⟨blank, rfl⟩ | separated
  · obtain ⟨fuel, rfl⟩ : ∃ f, limit = f + 1 := ⟨limit - 1, by omega⟩
    exact ⟨[], pos + body.length + 1, .nil, itemsOf_close parse fuel true blank rest pos []⟩
  · have count := separated.length_le
    simpa using itemsOf_separated separated solid hp .first (by omega : items.length < limit)
      rest pos []

theorem parses_members {α : Type} {R : α → Bytes → Prop} {name : α → Option String}
    {good : α → Node → Prop} {limit : Nat} {parse : Bytes → Nat → Parsed}
    (array : Bytes → Nat → Parsed) {members : List α} {body : Bytes}
    (h : Blank body ∧ members = [] ∨ Separated R members body)
    (hp : ∀ m ∈ members, ∀ text, R m text → text.length ≤ body.length →
      ParsesMember parse (name m) (good m) text)
    (short : body.length + 1 < limit) :
    Parses (ofValue array (ofObject parse limit))
      (fun node => ∃ start nodes stop, node = .object start nodes (.closed stop) ∧
        List.Forall₂ (fun n m => Named (good m) (name m) n) nodes members)
      (0x7b :: body ++ [0x7d]) := by
  refine parses_object array fun rest pos => ?_
  rcases h with ⟨blank, rfl⟩ | separated
  · obtain ⟨fuel, rfl⟩ : ∃ f, limit = f + 1 := ⟨limit - 1, by omega⟩
    exact ⟨[], pos + body.length + 1, .nil, membersOf_close parse fuel true blank rest pos []⟩
  · have count := separated.length_le
    simpa using membersOf_separated separated hp .first (by omega : members.length < limit)
      rest pos []

theorem parses_spelled (limit depth : Nat) {value : Json} {text : Bytes}
    (h : Spelled value text) (deep : value.depth ≤ depth) (short : text.length < limit) :
    Parses (atDepth limit depth) (·.StandsFor value) text := by
  have list {parse : Bytes → Nat → Parsed} {items : List Json} {body : Bytes}
      (shown : Parses parse (fun node => ∃ start opened nodes stop,
        node = .array start opened nodes (.closed stop) ∧
          List.Forall₂ (fun node item => node.StandsFor item) nodes items) body) :
      Parses parse (·.StandsFor (.array items)) body :=
    shown.imp fun node ⟨start, opened, nodes, stop, e, stand⟩ =>
      e ▸ .array start opened stop (itemsStandFor_iff.mpr stand)
  have object {parse : Bytes → Nat → Parsed} {members : List (String × Json)} {body : Bytes}
      (shown : Parses parse (fun node => ∃ start nodes stop,
        node = .object start nodes (.closed stop) ∧
          List.Forall₂ (fun n m => Named (·.StandsFor m.2) (some m.1) n) nodes members) body) :
      Parses parse (·.StandsFor (.object members)) body :=
    shown.imp fun node ⟨start, nodes, stop, e, stand⟩ =>
      e ▸ .object start stop (membersStandFor_iff.mpr stand)
  induction depth generalizing value text with
  | zero => exact parses_flat _ _ h (Nat.le_zero.mp deep)
  | succ depth ih =>
      have items {items : List Json} {body : Bytes} (deep : depthItems items ≤ depth)
          (short : body.length + 2 < limit)
          (h : Blank body ∧ items = [] ∨ Separated Spelled items body) :
          Parses (atDepth limit (depth + 1)) (·.StandsFor (.array items))
            (0x5b :: body ++ [0x5d]) := by
        refine list (parses_items _ h (fun _ _ h => h.solid) (fun item hm t ht le => ?_)
          (by omega))
        have below := depth_le_depthItems hm
        exact ih ht (by omega) (by omega)
      have members {members : List (String × Json)} {body : Bytes}
          (deep : depthMembers members ≤ depth) (short : body.length + 2 < limit)
          (h : Blank body ∧ members = [] ∨ Separated (MemberSpelled Spelled) members body) :
          Parses (atDepth limit (depth + 1)) (·.StandsFor (.object members))
            (0x7b :: body ++ [0x7d]) := by
        refine object (parses_members _ h (fun m mem t ht le => ?_) (by omega))
        have below := depth_le_depthMembers mem
        cases ht with
        | mk hk hm hg hv =>
            exact .mk (readsKey_spelled hk) hm hg (ih hv (by omega) (by simp at le; omega))
      cases h with
      | nullWord | trueWord | falseWord => exact parses_flat _ _ (by constructor) rfl
      | number h fits => exact parses_flat _ _ (.number h fits) rfl
      | text h => exact parses_flat _ _ (.text h) rfl
      | emptyArray hb => exact items (Nat.zero_le depth) (by simpa using short) (.inl ⟨hb, rfl⟩)
      | array hs =>
          rw [Json.depth] at deep
          exact items (by omega) (by simpa using short) (.inr hs)
      | emptyObject hb =>
          exact members (Nat.zero_le depth) (by simpa using short) (.inl ⟨hb, rfl⟩)
      | object hs =>
          rw [Json.depth] at deep
          exact members (by omega) (by simpa using short) (.inr hs)

theorem Document.ofBytes_spelled {value : Json} {bytes : Bytes}
    (h : DocumentSpelled value bytes) (deep : value.depth ≤ Document.maxDepth) :
    ∃ node, Document.ofBytes bytes = ⟨node, none⟩ ∧ node.StandsFor value := by
  obtain ⟨before, text, after, hb, hs, ha, rfl⟩ := h
  have parses := parses_spelled ((before ++ text ++ after).length + 1) Document.maxDepth hs deep
    (by simp; omega)
  obtain ⟨node, read, stands⟩ := parses before after 0 hb (stops_blank ha)
  refine ⟨node, ?_, stands⟩
  simp only [Document.ofBytes, read, skipBlanks_all ha]

theorem parse_spelled {value : Json} {bytes : Bytes} (h : DocumentSpelled value bytes)
    (deep : value.depth ≤ Document.maxDepth) : parse bytes = .ok value.sorted := by
  obtain ⟨node, read, stands⟩ := Document.ofBytes_spelled h deep
  rw [parse, Document.toJson, read]
  simp only [stands.toJson]

end PodWebhook.Json

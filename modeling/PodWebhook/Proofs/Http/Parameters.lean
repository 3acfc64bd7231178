import PodWebhook.Http.MediaType

/-!
Parameters of media types. `Parameters` is the grammar of what may stand behind the semicolon of a
media type, and `areParams_iff` says that reading a character at a time accepts exactly that.
-/

namespace PodWebhook.Http.MediaType

def IsWord (cs : List Char) : Prop := cs ≠ [] ∧ ∀ c ∈ cs, isTokenChar c = true

theorem ne_of_isTokenChar {c d : Char} (hc : isTokenChar c = true) (hd : isTokenChar d = false) :
    c ≠ d := by
  rintro rfl
  rw [hc] at hd
  cases hd

/-- The value of a parameter: a token, or a text in quotes and spaces after it. The text has a
character, and that may be a quote. -/
inductive Value : List Char → Prop
  | word {cs : List Char} (word : IsWord cs) : Value cs
  | quoted {first : Char} {text spaces : List Char} (opens : isQuotedChar first = true)
      (inside : ∀ c ∈ text, isQuotedChar c = true ∧ c ≠ '"') (after : ∀ c ∈ spaces, c = ' ') :
      Value ('"' :: first :: (text ++ '"' :: spaces))

/-- Parameters with semicolons between them. At the end a value may be missing, and so may a whole
parameter. -/
inductive Parameters : List Char → Prop
  | nothing : Parameters []
  | space {rest : List Char} (h : Parameters rest) : Parameters (' ' :: rest)
  | bare {name : List Char} (word : IsWord name) : Parameters (name ++ ['='])
  | last {name value : List Char} (word : IsWord name) (valued : Value value) :
      Parameters (name ++ '=' :: value)
  | more {name value rest : List Char} (word : IsWord name) (valued : Value value)
      (h : Parameters rest) : Parameters (name ++ '=' :: (value ++ ';' :: rest))

namespace ParamState

/-- Whether what is still to come brings the reading to an end. -/
def accepts (state : ParamState) (cs : List Char) : Bool :=
  match cs.foldlM step state with
  | some last => last.complete
  | none => false

theorem accepts_cons (state : ParamState) (c : Char) (cs : List Char) :
    state.accepts (c :: cs) = ((state.step c).map fun next => next.accepts cs).getD false := by
  rw [accepts, List.foldlM_cons]
  cases state.step c <;> rfl

/-- A state that goes on with some characters and is left at one other character. -/
structure Leaves (state : ParamState) (stay : Char → Bool) (exit : Char) (next : ParamState) :
    Prop where
  step (c : Char) :
    state.step c = if c == exit then some next else if stay c then some state else none

section

variable {state next : ParamState} {stay : Char → Bool} {exit : Char}

theorem Leaves.accepts_exit (h : state.Leaves stay exit next) (rest : List Char) :
    state.accepts (exit :: rest) = next.accepts rest := by
  rw [accepts_cons, h.step, beq_self_eq_true, if_pos rfl]
  rfl

theorem Leaves.accepts_stay (h : state.Leaves stay exit next) {c : Char}
    (stays : stay c = true ∧ c ≠ exit) (rest : List Char) :
    state.accepts (c :: rest) = state.accepts rest := by
  rw [accepts_cons, h.step, beq_eq_false_iff_ne.mpr stays.2, if_neg Bool.false_ne_true, stays.1]
  rfl

theorem Leaves.accepts_append (h : state.Leaves stay exit next) {taken : List Char}
    (stays : ∀ c ∈ taken, stay c = true ∧ c ≠ exit) (rest : List Char) :
    state.accepts (taken ++ rest) = state.accepts rest := by
  induction taken with
  | nil => rfl
  | cons c taken ih =>
      obtain ⟨first, others⟩ := List.forall_mem_cons.mp stays
      rw [List.cons_append, h.accepts_stay first, ih others]

theorem Leaves.accepts_iff (h : state.Leaves stay exit next) (cs : List Char) :
    state.accepts cs = true ↔
      ∃ taken, (∀ c ∈ taken, stay c = true ∧ c ≠ exit) ∧
        (cs = taken ∧ state.complete = true ∨
          ∃ rest, cs = taken ++ exit :: rest ∧ next.accepts rest = true) := by
  constructor
  · intro accepted
    induction cs with
    | nil => exact ⟨[], List.forall_mem_nil _, .inl ⟨rfl, accepted⟩⟩
    | cons c cs ih =>
        by_cases left : c = exit
        · subst left
          rw [h.accepts_exit] at accepted
          exact ⟨[], List.forall_mem_nil _, .inr ⟨cs, rfl, accepted⟩⟩
        · cases stays : stay c with
          | false => simp [accepts_cons, h.step, left, stays] at accepted
          | true =>
              rw [h.accepts_stay ⟨stays, left⟩] at accepted
              obtain ⟨taken, all, ending⟩ := ih accepted
              refine ⟨c :: taken, List.forall_mem_cons.mpr ⟨⟨stays, left⟩, all⟩, ?_⟩
              rcases ending with ⟨rfl, complete⟩ | ⟨rest, rfl, goesOn⟩
              · exact .inl ⟨rfl, complete⟩
              · exact .inr ⟨rest, rfl, goesOn⟩
  · rintro ⟨taken, all, ⟨rfl, complete⟩ | ⟨rest, rfl, goesOn⟩⟩
    · rw [← List.append_nil cs, h.accepts_append all]
      exact complete
    · rw [h.accepts_append all, h.accepts_exit]
      exact goesOn

end

theorem leaves_name : name.Leaves isTokenChar '=' value := ⟨fun _ => rfl⟩

theorem leaves_token : token.Leaves isTokenChar ';' start := ⟨fun _ => rfl⟩

theorem leaves_quoted : quoted.Leaves isQuotedChar '"' closed := ⟨fun _ => rfl⟩

theorem leaves_closed : closed.Leaves (· == ' ') ';' start := ⟨fun _ => rfl⟩

theorem accepts_start (c : Char) (cs : List Char) :
    start.accepts (c :: cs) = true ↔
      c = ' ' ∧ start.accepts cs = true ∨ isTokenChar c = true ∧ name.accepts cs = true := by
  rw [accepts_cons, step]
  by_cases space : c = ' '
  · subst space
    simp [show isTokenChar ' ' = false by decide]
  · cases isTokenChar c <;> simp [space]

theorem accepts_value (c : Char) (cs : List Char) :
    value.accepts (c :: cs) = true ↔
      c = '"' ∧ opened.accepts cs = true ∨ isTokenChar c = true ∧ token.accepts cs = true := by
  rw [accepts_cons, step]
  by_cases quote : c = '"'
  · subst quote
    simp [show isTokenChar '"' = false by decide]
  · cases isTokenChar c <;> simp [quote]

theorem accepts_opened (c : Char) (cs : List Char) :
    opened.accepts (c :: cs) = true ↔ isQuotedChar c = true ∧ quoted.accepts cs = true := by
  rw [accepts_cons, step]
  cases isQuotedChar c <;> simp

theorem exists_value_of_accepts {cs : List Char} (h : value.accepts cs = true) :
    cs = [] ∨ ∃ written, Value written ∧
      (cs = written ∨ ∃ rest, cs = written ++ ';' :: rest ∧ start.accepts rest = true) := by
  cases cs with
  | nil => exact .inl rfl
  | cons c cs =>
      refine .inr ?_
      rcases (accepts_value c cs).mp h with ⟨rfl, h⟩ | ⟨first, h⟩
      · cases cs with
        | nil => cases h
        | cons d cs =>
            obtain ⟨opens, h⟩ := (accepts_opened d cs).mp h
            obtain ⟨text, inside, ⟨-, complete⟩ | ⟨after, rfl, closes⟩⟩ :=
              (leaves_quoted.accepts_iff cs).mp h
            · cases complete
            · obtain ⟨spaces, blank, ending⟩ := (leaves_closed.accepts_iff after).mp closes
              refine ⟨_, .quoted opens inside fun e he => by simpa using (blank e he).1, ?_⟩
              rcases ending with ⟨rfl, -⟩ | ⟨rest, rfl, goesOn⟩
              · exact .inl rfl
              · exact .inr ⟨rest, by simp, goesOn⟩
      · obtain ⟨word, all, ending⟩ := (leaves_token.accepts_iff cs).mp h
        have written : IsWord (c :: word) :=
          ⟨List.cons_ne_nil c word, List.forall_mem_cons.mpr ⟨first, fun d hd => (all d hd).1⟩⟩
        refine ⟨c :: word, .word written, ?_⟩
        rcases ending with ⟨rfl, -⟩ | ⟨rest, rfl, goesOn⟩
        · exact .inl rfl
        · exact .inr ⟨rest, rfl, goesOn⟩

theorem accepts_value_append {written tail : List Char} (h : Value written)
    (afterWord : token.accepts tail = true) (afterQuote : closed.accepts tail = true) :
    value.accepts (written ++ tail) = true := by
  cases h with
  | word word =>
      cases written with
      | nil => exact absurd rfl word.1
      | cons c written =>
          obtain ⟨first, others⟩ := List.forall_mem_cons.mp word.2
          rw [List.cons_append, accepts_value]
          refine .inr ⟨first, ?_⟩
          rw [leaves_token.accepts_append
            fun d hd => ⟨others d hd, ne_of_isTokenChar (others d hd) (by decide)⟩]
          exact afterWord
  | @quoted first text spaces opens inside blank =>
      have spaced : ∀ c ∈ spaces, (c == ' ') = true ∧ c ≠ ';' := by
        intro c hc
        rw [blank c hc]
        decide
      have read : quoted.accepts (text ++ '"' :: (spaces ++ tail)) = true := by
        rw [leaves_quoted.accepts_append inside, leaves_quoted.accepts_exit,
          leaves_closed.accepts_append spaced]
        exact afterQuote
      rw [List.cons_append, List.cons_append, List.append_assoc]
      exact (accepts_value '"' _).mpr (.inl ⟨rfl, (accepts_opened first _).mpr ⟨opens, read⟩⟩)

theorem accepts_start_name {written rest : List Char} (word : IsWord written)
    (h : value.accepts rest = true) : start.accepts (written ++ '=' :: rest) = true := by
  cases written with
  | nil => exact absurd rfl word.1
  | cons c written =>
      obtain ⟨first, others⟩ := List.forall_mem_cons.mp word.2
      rw [List.cons_append, accepts_start]
      refine .inr ⟨first, ?_⟩
      rw [leaves_name.accepts_append
        fun d hd => ⟨others d hd, ne_of_isTokenChar (others d hd) (by decide)⟩,
        leaves_name.accepts_exit]
      exact h

end ParamState

open ParamState

theorem parameters_of_accepts (cs : List Char) (h : start.accepts cs = true) : Parameters cs := by
  induction n : cs.length using Nat.strongRecOn generalizing cs with
  | _ n ih =>
    cases cs with
    | nil => exact .nothing
    | cons c cs =>
        rcases (accepts_start c cs).mp h with ⟨rfl, more⟩ | ⟨first, named⟩
        · exact .space (ih cs.length (by simp [← n]) cs more rfl)
        · obtain ⟨name, others, ⟨-, complete⟩ | ⟨rest, rfl, read⟩⟩ :=
            (leaves_name.accepts_iff cs).mp named
          · cases complete
          · have word : IsWord (c :: name) :=
              ⟨List.cons_ne_nil c name,
                List.forall_mem_cons.mpr ⟨first, fun d hd => (others d hd).1⟩⟩
            rcases exists_value_of_accepts read with rfl | ⟨value, valued, rfl | ⟨rest, rfl, more⟩⟩
            · exact .bare word
            · exact .last word valued
            · exact .more word valued (ih rest.length (by simp [← n]; omega) rest more rfl)

theorem accepts_of_parameters {cs : List Char} (h : Parameters cs) : start.accepts cs = true := by
  induction h with
  | nothing => rfl
  | space h ih => exact (accepts_start ' ' _).mpr (.inl ⟨rfl, ih⟩)
  | bare word => exact accepts_start_name word rfl
  | @last name value word valued =>
      have read : ParamState.value.accepts (value ++ []) = true :=
        accepts_value_append valued rfl rfl
      rw [List.append_nil] at read
      exact accepts_start_name word read
  | more word valued h ih =>
      exact accepts_start_name word (accepts_value_append valued
        ((leaves_token.accepts_exit _).trans ih) ((leaves_closed.accepts_exit _).trans ih))

theorem areParams_iff {cs : List Char} : areParams cs = true ↔ Parameters cs :=
  ⟨parameters_of_accepts cs, accepts_of_parameters⟩

end PodWebhook.Http.MediaType

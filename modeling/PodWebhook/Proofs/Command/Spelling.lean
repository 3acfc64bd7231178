import PodWebhook.Command.Line
import PodWebhook.Proofs.Text.Fronts

/-!
What a command line says. `Spelled` tells which arguments give settings which values, and an
argument list never says two things.
-/

namespace PodWebhook.Command

abbrev Occurrences := List (Setting × String)

def Setting.argument (s : Setting) (value : Option String) : String :=
  match value with
  | none => "--" ++ s.option
  | some value => "--" ++ s.option ++ "=" ++ value

/-- An argument that starts with a dash and goes on is never the value of the option before it. -/
def IsDashed (argument : String) : Prop := ∃ c rest, argument.toList = '-' :: c :: rest

/-- The arguments give these values. A value is attached to its option or stands behind it; a switch
gives the value true; two dashes may come last. -/
inductive Spelled : Occurrences → List String → Prop
  | nothing : Spelled [] []
  | ended : Spelled [] ["--"]
  | attached {s : Setting} {value : String} {occurrences : Occurrences} {arguments : List String}
      (valued : s.form?.isSome = true) (h : Spelled occurrences arguments) :
      Spelled ((s, value) :: occurrences) (s.argument (some value) :: arguments)
  | apart {s : Setting} {value : String} {occurrences : Occurrences} {arguments : List String}
      (valued : s.form?.isSome = true) (plain : ¬ IsDashed value)
      (h : Spelled occurrences arguments) :
      Spelled ((s, value) :: occurrences) (s.argument none :: value :: arguments)
  | switch {s : Setting} {occurrences : Occurrences} {arguments : List String}
      (bare : s.form?.isSome = false) (h : Spelled occurrences arguments) :
      Spelled ((s, "true") :: occurrences) (s.argument none :: arguments)

namespace Setting

theorem not_mem_option (s : Setting) : '=' ∉ s.option.toList := by
  cases s <;> decide

theorem ofOption?_option (s : Setting) : ofOption? s.option = some s := by
  cases s <;> rfl

theorem option_of_ofOption? {name : String} {s : Setting} (h : ofOption? name = some s) :
    s.option = name := by
  simpa using List.find?_some h

def body (name : String) (value : Option String) : List Char :=
  match value with
  | none => name.toList
  | some value => name.toList ++ '=' :: value.toList

theorem toList_argument (s : Setting) (value : Option String) :
    (s.argument value).toList = '-' :: '-' :: body s.option value := by
  cases value <;> simp [argument, body, String.toList_append]

theorem exists_eq_body (text : List Char) :
    ∃ name value, '=' ∉ name.toList ∧ text = body name value := by
  obtain ⟨name, value, free, rfl⟩ := Text.exists_cut '=' text
  refine ⟨String.ofList name, value.map String.ofList, by simpa using free, ?_⟩
  cases value <;> simp [body]

theorem splitValue_body {name : String} (free : '=' ∉ name.toList) (value : Option String) :
    Reading.splitValue (body name value) = (name, value) := by
  have taken : (body name value).takeWhile (· != '=') = name.toList := by
    have cut := Text.takeWhile_cut free (value.map String.toList)
    cases value with
    | none => simpa [body] using cut
    | some value => exact cut
  rw [Reading.splitValue, taken]
  cases value <;> simp [body]

theorem body_of_splitValue {text : List Char} {name : String} {value : Option String}
    (h : Reading.splitValue text = (name, value)) : text = body name value := by
  obtain ⟨front, behind, free, rfl⟩ := exists_eq_body text
  rw [splitValue_body free] at h
  obtain ⟨rfl, rfl⟩ := Prod.mk.inj h
  rfl

theorem argument_inj {s t : Setting} {value other : Option String}
    (h : s.argument value = t.argument other) : s = t ∧ value = other := by
  have bodies : body s.option value = body t.option other := by
    have chars := congrArg String.toList h
    rw [toList_argument, toList_argument] at chars
    simpa using chars
  have parts := congrArg Reading.splitValue bodies
  rw [splitValue_body s.not_mem_option, splitValue_body t.not_mem_option] at parts
  obtain ⟨options, rfl⟩ := Prod.mk.inj parts
  have same := congrArg ofOption? options
  rw [ofOption?_option, ofOption?_option] at same
  exact ⟨Option.some.inj same, rfl⟩

theorem exists_body (s : Setting) (value : Option String) :
    ∃ c rest, body s.option value = c :: rest := by
  cases s <;> cases value <;> exact ⟨_, _, rfl⟩

theorem argument_ne_dashes (s : Setting) (value : Option String) : s.argument value ≠ "--" := by
  intro h
  obtain ⟨c, rest, body⟩ := s.exists_body value
  have chars := s.toList_argument value
  rw [h, body] at chars
  cases chars

end Setting

theorem Spelled.cons_cases {occurrences : Occurrences} {argument : String} {arguments : List String}
    (h : Spelled occurrences (argument :: arguments)) :
    (occurrences = [] ∧ argument = "--") ∨
    (∃ s value others, argument = Setting.argument s (some value) ∧
      occurrences = (s, value) :: others ∧ Spelled others arguments) ∨
    (∃ s value others rest, s.form?.isSome = true ∧ argument = Setting.argument s none ∧
      arguments = value :: rest ∧ occurrences = (s, value) :: others ∧ Spelled others rest) ∨
    ∃ s others, s.form?.isSome = false ∧ argument = Setting.argument s none ∧
      occurrences = (s, "true") :: others ∧ Spelled others arguments := by
  generalize whole : argument :: arguments = all at h
  cases h with
  | nothing => cases whole
  | ended => exact .inl ⟨rfl, (List.cons.inj whole).1⟩
  | attached valued h =>
      obtain ⟨rfl, rfl⟩ := List.cons.inj whole
      exact .inr (.inl ⟨_, _, _, rfl, rfl, h⟩)
  | apart valued plain h =>
      obtain ⟨rfl, rfl⟩ := List.cons.inj whole
      exact .inr (.inr (.inl ⟨_, _, _, _, valued, rfl, rfl, rfl, h⟩))
  | switch bare h =>
      obtain ⟨rfl, rfl⟩ := List.cons.inj whole
      exact .inr (.inr (.inr ⟨_, _, bare, rfl, rfl, h⟩))

/-- Arguments can be taken in one way only. -/
theorem Spelled.unique {occurrences : Occurrences} {arguments : List String}
    (h : Spelled occurrences arguments) {others : Occurrences} (h' : Spelled others arguments) :
    others = occurrences := by
  induction h generalizing others with
  | nothing => cases h' with
    | nothing => rfl
  | ended =>
      rcases h'.cons_cases with ⟨rfl, -⟩ | ⟨s, _, _, named, -⟩ | ⟨s, _, _, _, -, named, -⟩ |
        ⟨s, _, -, named, -⟩
      · rfl
      all_goals exact absurd named.symm (s.argument_ne_dashes _)
  | @attached s value occurrences arguments valued h ih =>
      rcases h'.cons_cases with ⟨-, named⟩ | ⟨t, _, _, named, rfl, rest⟩ |
        ⟨t, _, _, _, -, named, -⟩ | ⟨t, _, -, named, -⟩
      · exact absurd named (s.argument_ne_dashes _)
      · obtain ⟨rfl, ⟨⟩⟩ := Setting.argument_inj named
        rw [ih rest]
      · cases (Setting.argument_inj named).2
      · cases (Setting.argument_inj named).2
  | @apart s value occurrences arguments valued plain h ih =>
      rcases h'.cons_cases with ⟨-, named⟩ | ⟨t, _, _, named, -⟩ |
        ⟨t, _, _, _, -, named, ⟨⟩, rfl, rest⟩ | ⟨t, _, bare, named, -⟩
      · exact absurd named (s.argument_ne_dashes _)
      · cases (Setting.argument_inj named).2
      · obtain ⟨rfl, -⟩ := Setting.argument_inj named
        rw [ih rest]
      · obtain ⟨rfl, -⟩ := Setting.argument_inj named
        rw [valued] at bare
        cases bare
  | @switch s occurrences arguments bare h ih =>
      rcases h'.cons_cases with ⟨-, named⟩ | ⟨t, _, _, named, -⟩ |
        ⟨t, _, _, _, valued, named, -⟩ | ⟨t, _, -, named, rfl, rest⟩
      · exact absurd named (s.argument_ne_dashes _)
      · cases (Setting.argument_inj named).2
      · obtain ⟨rfl, -⟩ := Setting.argument_inj named
        rw [bare] at valued
        cases valued
      · obtain ⟨rfl, -⟩ := Setting.argument_inj named
        rw [ih rest]

theorem Spelled.switched {occurrences : Occurrences} {arguments : List String}
    (h : Spelled occurrences arguments) :
    ∀ o ∈ occurrences, o.1.form?.isSome = true ∨ o.2 = "true" := by
  induction h with
  | nothing => exact List.forall_mem_nil _
  | ended => exact List.forall_mem_nil _
  | attached valued _ ih => exact List.forall_mem_cons.mpr ⟨.inl valued, ih⟩
  | apart valued _ _ ih => exact List.forall_mem_cons.mpr ⟨.inl valued, ih⟩
  | switch _ _ ih => exact List.forall_mem_cons.mpr ⟨.inr rfl, ih⟩

end PodWebhook.Command

import PodWebhook.Proofs.Command.Resolution

/-!
One variable more, or with another value. The command line is taken as before or the value of that
variable is refused, and nothing but its own setting changes. For the variable that asks for no
colours this means that the program does not start unless the value is one of a switch.
-/

namespace PodWebhook

namespace Command

/-- The second environment sets the variable of one setting, and agrees with the first one on the
variables of the others. -/
structure Exports (s : Setting) (value : String) (environment environment' : Environment) :
    Prop where
  set : environment'.get? s.envVar = some value
  kept (t : Setting) : t ≠ s → environment'.get? t.envVar = environment.get? t.envVar

def Setting.refusal (s : Setting) (value : String) : UsageError :=
  if value = "" then .missingValue s else .invalidValue s value

theorem Given.assign_of_not_admits {given : Given} {s : Setting} {value : String}
    (free : given.get? s = none) (refused : s.admits value = false) :
    given.assign s value = .error (s.refusal value) := by
  rw [assign, free, refused, Setting.refusal]
  by_cases empty : value = "" <;> simp [empty]

section

variable {arguments : List String} {environment environment' : Environment} {given : Given}
  {s : Setting} {value : String}

theorem addVariable_congr {t : Setting} (given : Given)
    (same : environment'.get? t.envVar = environment.get? t.envVar) :
    addVariable environment' given t = addVariable environment given t := by
  rw [addVariable, addVariable, same]

theorem foldlM_addVariable_congr {settings : List Setting} (given : Given)
    (same : ∀ t ∈ settings, environment'.get? t.envVar = environment.get? t.envVar) :
    settings.foldlM (addVariable environment') given =
      settings.foldlM (addVariable environment) given := by
  induction settings generalizing given with
  | nil => rfl
  | cons t settings ih =>
      obtain ⟨first, rest⟩ := List.forall_mem_cons.mp same
      rw [List.foldlM_cons, List.foldlM_cons, addVariable_congr given first]
      exact congrArg _ (funext fun middle => ih middle rest)

theorem Setting.exists_around (s : Setting) :
    ∃ before after, all = before ++ s :: after ∧ before.Nodup ∧ s ∉ before := by
  obtain ⟨before, after, whole⟩ := List.append_of_mem s.mem_all
  have once := nodup_all
  rw [whole] at once
  obtain ⟨first, -, apart⟩ := List.nodup_append.mp once
  exact ⟨before, after, whole, first, fun member => apart s member s List.mem_cons_self rfl⟩

/-- An option that is given hides its variable, and a value that is admitted takes the place of the
default. -/
theorem read_of_exports (accepted : read arguments environment = .ok given)
    (exported : Exports s value environment environment')
    (taken : (∃ v, Gives arguments s v) ∨ s.admits value = true) :
    ∃ given', read arguments environment' = .ok given' := by
  obtain ⟨occurrences, spelled, acceptable, -⟩ := spelled_of_read accepted
  have admitted (t : Setting) (v : String) (found : source? occurrences environment' t = some v) :
      t.admits v = true := by
    rcases Option.or_eq_some_iff.mp found with onLine | ⟨free, set⟩
    · exact acceptable.admitted t v (Option.or_eq_some_iff.mpr (.inl onLine))
    · by_cases same : t = s
      · subst same
        obtain rfl := Option.some.inj (exported.set.symm.trans set)
        rcases taken with ⟨w, gives⟩ | admits
        · exact absurd ((gives_iff spelled).mp gives) (Given.get?_eq_none_iff.mp free w)
        · exact admits
      · rw [exported.kept t same] at set
        exact acceptable.admitted t v (Option.or_eq_some_iff.mpr (.inr ⟨free, set⟩))
  obtain ⟨given', reads, -⟩ := read_of_spelled spelled ⟨acceptable.once, admitted⟩
  exact ⟨given', reads⟩

theorem read_refuses (accepted : read arguments environment = .ok given)
    (exported : Exports s value environment environment') (free : ∀ v, ¬ Gives arguments s v)
    (refused : s.admits value = false) :
    read arguments environment' = .error (.error (s.refusal value)) := by
  obtain ⟨onLine, reads, added⟩ := read_eq_ok_iff.mp accepted
  obtain ⟨before, after, whole, once, absent⟩ := s.exists_around
  rw [whole, List.foldlM_append] at added
  obtain ⟨middle, first, -⟩ := bind_eq_ok_iff.mp added
  have open' : middle.get? s = none := by
    obtain ⟨occurrences, spelled, single, -, rfl⟩ := reads_start_iff.mp reads
    rw [(foldlM_addVariable_spec once first).2 s, if_neg absent, Given.get?_reverse single]
    exact Given.get?_eq_none_iff.mpr fun v member => free v ((gives_iff spelled).mpr member)
  have same : ∀ t ∈ before, environment'.get? t.envVar = environment.get? t.envVar :=
    fun t member => exported.kept t fun e => absent (e ▸ member)
  have stops : addVariable environment' middle s = .error (s.refusal value) :=
    (addVariable_of_set open' exported.set).trans (Given.assign_of_not_admits open' refused)
  have fails : Setting.all.foldlM (addVariable environment') onLine = .error (s.refusal value) := by
    rw [whole, List.foldlM_append, foldlM_addVariable_congr onLine same, first]
    change (s :: after).foldlM (addVariable environment') middle = _
    rw [List.foldlM_cons, stops]
    rfl
  obtain ⟨last, settled, ran, settles, rfl⟩ := reads
  simp only [read, ran, settles, fails]

theorem value_of_exports (accepted : read arguments environment = .ok given)
    (exported : Exports s value environment environment') {given' : Given}
    (accepted' : read arguments environment' = .ok given') :
    (∀ v, Gives arguments s v → given'.value s = v) ∧
      ((∀ v, ¬ Gives arguments s v) → given'.value s = value) ∧
      ∀ t, t ≠ s → given'.value t = given.value t := by
  have resolves := resolves_of_read accepted'
  refine ⟨resolves.onLine s, fun free => resolves.fromEnvironment s value free exported.set, ?_⟩
  exact fun t apart =>
    value_eq_of_sameSources accepted accepted' ⟨fun v => Iff.rfl, exported.kept t apart⟩

end

/-- What the variable for no colours does to a command line that is taken without it, or with
another value of it. It is a switch like any other: unless the option hides it the value is true or
false, or the program does not start; only true turns the colours off, and nothing else changes. -/
theorem read_noColor {arguments : List String} {environment environment' : Environment}
    {given : Given} {value : String} (accepted : read arguments environment = .ok given)
    (set : environment'.get? "NO_COLOR" = some value)
    (kept : ∀ name, name ≠ "NO_COLOR" → environment'.get? name = environment.get? name) :
    ((∃ given', read arguments environment' = .ok given') ↔
      Gives arguments .noColor "true" ∨ value = "true" ∨ value = "false") ∧
    (¬ Gives arguments .noColor "true" → value ≠ "true" → value ≠ "false" →
      read arguments environment' = .error (.error (Setting.refusal .noColor value))) ∧
    ∀ given', read arguments environment' = .ok given' →
      (∀ s, s ≠ .noColor → given'.value s = given.value s) ∧
      ∃ noColor : Bool, (noColor = true ↔ Gives arguments .noColor "true" ∨ value = "true") ∧
        Config.ofValues given'.value =
          (Config.ofValues given.value).map fun config => { config with noColor := noColor } := by
  have exported : Exports .noColor value environment environment' :=
    ⟨set, fun t apart => kept t.envVar fun e => apart (Setting.envVar_injective e)⟩
  have admits : Setting.noColor.admits value = true ↔ value = "true" ∨ value = "false" := by
    simp [Setting.admits, Setting.choices, Setting.form?]
  have on {v : String} (gives : Gives arguments .noColor v) : v = "true" := by
    obtain ⟨occurrences, spelled, member⟩ := gives
    exact (spelled.switched _ member).resolve_left nofun
  have refuses (free : ¬ Gives arguments .noColor "true") (isTrue : value ≠ "true")
      (isFalse : value ≠ "false") :
      read arguments environment' = .error (.error (Setting.refusal .noColor value)) := by
    refine read_refuses accepted exported (fun v gives => free (on gives ▸ gives)) ?_
    rw [Bool.eq_false_iff]
    exact fun h => (admits.mp h).elim isTrue isFalse
  refine ⟨⟨?_, ?_⟩, refuses, ?_⟩
  · rintro ⟨given', taken⟩
    by_contra h
    obtain ⟨free, h⟩ := not_or.mp h
    obtain ⟨isTrue, isFalse⟩ := not_or.mp h
    rw [refuses free isTrue isFalse] at taken
    cases taken
  · rintro (gives | h)
    · exact read_of_exports accepted exported (.inl ⟨_, gives⟩)
    · exact read_of_exports accepted exported (.inr (admits.mpr h))
  · intro given' taken
    obtain ⟨onLine, fromVariable, others⟩ := value_of_exports accepted exported taken
    refine ⟨others, given'.value .noColor == "true", ?_, Config.ofValues_noColor others⟩
    rw [beq_iff_eq]
    by_cases gives : Gives arguments .noColor "true"
    · exact iff_of_true (onLine _ gives) (.inl gives)
    · rw [fromVariable fun v other => gives (on other ▸ other)]
      exact (or_iff_right gives).symm

/-- Any other value ends the program before it starts. -/
theorem read_noColor_one :
    read [] [] = .ok [] ∧
      read [] [("NO_COLOR", "1")] = .error (.error (.invalidValue .noColor "1")) := by
  have nothing : ¬ Gives [] .noColor "true" := by
    rintro ⟨_, ⟨⟩, member⟩
    cases member
  have kept (name : String) (apart : name ≠ "NO_COLOR") :
      Environment.get? [("NO_COLOR", "1")] name = Environment.get? [] name := by
    simp [Environment.get?, apart.symm]
  have accepted : read [] [] = .ok [] := by rfl
  have set : Environment.get? [("NO_COLOR", "1")] "NO_COLOR" = some "1" := by rfl
  exact ⟨accepted, (read_noColor accepted set kept).2.1 nothing (by decide) (by decide)⟩

end Command

end PodWebhook

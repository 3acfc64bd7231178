import PodWebhook.Proofs.Command.Reading

/-!
Where values come from: from the command line, else from the environment, else from the defaults,
each setting by itself. `read_of_spelled` and `spelled_of_read` say when arguments and environment
are taken, and what every setting comes to then.
-/

namespace PodWebhook.Command

namespace Given

theorem get?_cons_self (s : Setting) (value : String) (given : Given) :
    get? ((s, value) :: given) s = some value := by
  simp [get?]

theorem get?_cons_of_ne {s t : Setting} (h : s ≠ t) (value : String) (given : Given) :
    get? ((s, value) :: given) t = given.get? t := by
  simp [get?, h]

theorem get?_cons_eq_none_iff {s t : Setting} {value : String} {given : Given} :
    get? ((s, value) :: given) t = none ↔ s ≠ t ∧ given.get? t = none := by
  by_cases h : s = t
  · subst h
    simp [get?_cons_self]
  · simp [get?_cons_of_ne h, h]

theorem get?_eq_none_iff {given : Given} {s : Setting} :
    given.get? s = none ↔ ∀ value, (s, value) ∉ given := by
  induction given with
  | nil => exact iff_of_true rfl fun value => List.not_mem_nil
  | cons g given ih =>
      obtain ⟨t, other⟩ := g
      rw [get?_cons_eq_none_iff, ih]
      simp [forall_and, eq_comm]

theorem get?_eq_some_iff {given : Given} (once : (given.map Prod.fst).Nodup) {s : Setting}
    {value : String} : given.get? s = some value ↔ (s, value) ∈ given := by
  induction given with
  | nil => exact iff_of_false nofun List.not_mem_nil
  | cons g given ih =>
      obtain ⟨t, other⟩ := g
      obtain ⟨fresh, rest⟩ := List.nodup_cons.mp once
      by_cases h : t = s
      · subst h
        have absent : (t, value) ∉ given := fun member =>
          fresh (List.mem_map.mpr ⟨_, member, rfl⟩)
        simp [get?_cons_self, absent, eq_comm]
      · rw [get?_cons_of_ne h, ih rest]
        simp [Ne.symm h]

theorem assign_eq_ok_iff {given last : Given} {s : Setting} {value : String} :
    given.assign s value = .ok last ↔
      given.get? s = none ∧ s.admits value = true ∧ last = (s, value) :: given := by
  rw [assign]
  cases given.get? s with
  | some other => simp
  | none =>
      cases s.admits value with
      | true => simp [eq_comm]
      | false => cases value.isEmpty <;> simp

theorem assignAll_eq_ok_iff {given last : Given} {occurrences : Occurrences} :
    given.assignAll occurrences = .ok last ↔
      (∀ o ∈ occurrences, given.get? o.1 = none ∧ o.1.admits o.2 = true) ∧
        (occurrences.map Prod.fst).Nodup ∧ last = occurrences.reverse ++ given := by
  induction occurrences generalizing given with
  | nil =>
      refine ⟨fun done => ⟨List.forall_mem_nil _, List.nodup_nil, (Except.ok.inj done).symm⟩, ?_⟩
      rintro ⟨-, -, rfl⟩
      rfl
  | cons o occurrences ih =>
      obtain ⟨s, value⟩ := o
      rw [← List.singleton_append, assignAll_append, assignAll_singleton]
      constructor
      · rintro ⟨middle, first, rest⟩
        obtain ⟨free, admitted, rfl⟩ := assign_eq_ok_iff.mp first
        obtain ⟨others, once, rfl⟩ := ih.mp rest
        have apart (o) (member : o ∈ occurrences) : s ≠ o.1 ∧ given.get? o.1 = none :=
          get?_cons_eq_none_iff.mp (others o member).1
        refine ⟨List.forall_mem_cons.mpr ⟨⟨free, admitted⟩, fun o member => ?_⟩,
          List.nodup_cons.mpr ⟨fun member => ?_, once⟩, by simp⟩
        · exact ⟨(apart o member).2, (others o member).2⟩
        · obtain ⟨o, again, same⟩ := List.mem_map.mp member
          exact (apart o again).1 same.symm
      · rintro ⟨each, once, rfl⟩
        obtain ⟨⟨free, admitted⟩, others⟩ := List.forall_mem_cons.mp each
        obtain ⟨fresh, once⟩ := List.nodup_cons.mp once
        refine ⟨_, assign_eq_ok_iff.mpr ⟨free, admitted, rfl⟩,
          ih.mpr ⟨fun o member => ⟨?_, (others o member).2⟩, once, by simp⟩⟩
        have apart : s ≠ o.1 := fun same => fresh (List.mem_map.mpr ⟨o, member, same.symm⟩)
        exact get?_cons_eq_none_iff.mpr ⟨apart, (others o member).1⟩

end Given

section

variable {environment : Environment}

theorem addVariable_of_given {given : Given} {s : Setting} (h : given.get? s ≠ none) :
    addVariable environment given s = .ok given := by
  unfold addVariable
  split
  · next found _ => exact absurd found h
  · rfl

theorem addVariable_of_unset (given : Given) {s : Setting}
    (h : environment.get? s.envVar = none) : addVariable environment given s = .ok given := by
  unfold addVariable
  split
  · next found =>
    rw [h] at found
    cases found
  · rfl

theorem addVariable_of_set {given : Given} {s : Setting} {value : String}
    (free : given.get? s = none) (set : environment.get? s.envVar = some value) :
    addVariable environment given s = given.assign s value := by
  unfold addVariable
  rw [free, set]

/-- The value of a setting in the environment is one that it admits, if it is asked for. -/
def Admitted (environment : Environment) (given : Given) (s : Setting) : Prop :=
  ∀ value, given.get? s = none → environment.get? s.envVar = some value → s.admits value = true

theorem addVariable_spec {given last : Given} {s : Setting}
    (h : addVariable environment given s = .ok last) :
    Admitted environment given s ∧ last.get? s = (given.get? s).or (environment.get? s.envVar) ∧
      ∀ t, t ≠ s → last.get? t = given.get? t := by
  by_cases free : given.get? s = none
  · cases set : environment.get? s.envVar with
    | none =>
        obtain rfl := Except.ok.inj ((addVariable_of_unset given set).symm.trans h)
        exact ⟨fun value _ other => by simp [set] at other, by simp, fun _ _ => rfl⟩
    | some value =>
        rw [addVariable_of_set free set] at h
        obtain ⟨-, admitted, rfl⟩ := Given.assign_eq_ok_iff.mp h
        refine ⟨fun other _ again => ?_, by rw [free, Given.get?_cons_self]; rfl,
          fun t apart => Given.get?_cons_of_ne (Ne.symm apart) value given⟩
        rw [set] at again
        exact Option.some.inj again ▸ admitted
  · obtain rfl := Except.ok.inj ((addVariable_of_given free).symm.trans h)
    obtain ⟨value, found⟩ := Option.ne_none_iff_exists'.mp free
    exact ⟨fun _ none => absurd none free, by rw [found]; rfl, fun _ _ => rfl⟩

theorem exists_addVariable {given : Given} {s : Setting} (h : Admitted environment given s) :
    ∃ last, addVariable environment given s = .ok last := by
  by_cases free : given.get? s = none
  · cases set : environment.get? s.envVar with
    | none => exact ⟨given, addVariable_of_unset given set⟩
    | some value =>
        rw [addVariable_of_set free set]
        exact ⟨_, Given.assign_eq_ok_iff.mpr ⟨free, h value free set, rfl⟩⟩
  · exact ⟨given, addVariable_of_given free⟩

theorem foldlM_addVariable_spec {settings : List Setting} (once : settings.Nodup)
    {given last : Given} (h : settings.foldlM (addVariable environment) given = .ok last) :
    (∀ s ∈ settings, Admitted environment given s) ∧
      ∀ s, last.get? s =
        if s ∈ settings then (given.get? s).or (environment.get? s.envVar) else given.get? s := by
  induction settings generalizing given with
  | nil =>
      obtain rfl := Except.ok.inj h
      exact ⟨List.forall_mem_nil _, fun s => by simp⟩
  | cons s settings ih =>
      obtain ⟨fresh, once⟩ := List.nodup_cons.mp once
      rw [List.foldlM_cons] at h
      obtain ⟨middle, first, rest⟩ := bind_eq_ok_iff.mp h
      obtain ⟨admitted, settled, kept⟩ := addVariable_spec first
      obtain ⟨others, values⟩ := ih once rest
      have apart : ∀ t ∈ settings, t ≠ s := fun t member e => fresh (e ▸ member)
      refine ⟨List.forall_mem_cons.mpr ⟨admitted, fun t member value free => ?_⟩, fun t => ?_⟩
      · exact others t member value ((kept t (apart t member)).trans free)
      · rw [values t]
        by_cases same : t = s
        · subst same
          simp [fresh, settled]
        · simp [same, kept t same]

theorem exists_foldlM_addVariable {settings : List Setting} (once : settings.Nodup) {given : Given}
    (h : ∀ s ∈ settings, Admitted environment given s) :
    ∃ last, settings.foldlM (addVariable environment) given = .ok last := by
  induction settings generalizing given with
  | nil => exact ⟨given, rfl⟩
  | cons s settings ih =>
      obtain ⟨fresh, once⟩ := List.nodup_cons.mp once
      obtain ⟨admitted, others⟩ := List.forall_mem_cons.mp h
      obtain ⟨middle, first⟩ := exists_addVariable admitted
      have kept := (addVariable_spec first).2.2
      have apart : ∀ t ∈ settings, t ≠ s := fun t member e => fresh (e ▸ member)
      obtain ⟨last, rest⟩ := ih once fun t member value free =>
        others t member value ((kept t (apart t member)).symm.trans free)
      exact ⟨last, by rw [List.foldlM_cons]; exact bind_eq_ok_iff.mpr ⟨middle, first, rest⟩⟩

def source? (occurrences : Occurrences) (environment : Environment) (s : Setting) :
    Option String :=
  (Given.get? occurrences s).or (environment.get? s.envVar)

structure Acceptable (occurrences : Occurrences) (environment : Environment) : Prop where
  once : (occurrences.map Prod.fst).Nodup
  admitted (s : Setting) (value : String) :
    source? occurrences environment s = some value → s.admits value = true

theorem Setting.nodup_all : Setting.all.Nodup := by
  decide

theorem read_eq_ok_iff {arguments : List String} {given : Given} :
    read arguments environment = .ok given ↔
      ∃ onLine, Reading.start.Reads arguments onLine ∧
        Setting.all.foldlM (addVariable environment) onLine = .ok given := by
  constructor
  · intro h
    unfold read at h
    split at h
    · cases h
    · next last ran =>
      split at h
      · cases h
      · next settled settles =>
        split at h
        · cases h
        · next whole added =>
          obtain rfl := Except.ok.inj h
          exact ⟨settled.given, ⟨last, settled, ran, settles, rfl⟩, added⟩
  · rintro ⟨_, ⟨last, settled, ran, settles, rfl⟩, added⟩
    simp only [read, ran, settles, added]

/-- A command line that spells nothing twice gives what it spells, in reverse. -/
theorem reads_start_iff {arguments : List String} {given : Given} :
    Reading.start.Reads arguments given ↔
      ∃ occurrences, Spelled occurrences arguments ∧ (occurrences.map Prod.fst).Nodup ∧
        (∀ o ∈ occurrences, o.1.admits o.2 = true) ∧ given = occurrences.reverse := by
  have assigned (occurrences : Occurrences) :
      Given.assignAll [] occurrences = .ok given ↔
        (occurrences.map Prod.fst).Nodup ∧ (∀ o ∈ occurrences, o.1.admits o.2 = true) ∧
          given = occurrences.reverse := by
    rw [Given.assignAll_eq_ok_iff, List.append_nil]
    exact ⟨fun ⟨each, once, same⟩ => ⟨once, fun o member => (each o member).2, same⟩,
      fun ⟨once, each, same⟩ => ⟨fun o member => ⟨rfl, each o member⟩, once, same⟩⟩
  constructor
  · intro h
    obtain ⟨occurrences, spelled, given⟩ := Reading.continues_of_reads rfl h
    exact ⟨occurrences, spelled.spelled, (assigned occurrences).mp given⟩
  · rintro ⟨occurrences, spelled, given⟩
    have wait : Reading.waiting? Reading.start.pending = some [] := rfl
    exact Reading.reads_of_spelled spelled rfl wait ((assigned occurrences).mpr given)

theorem Given.get?_reverse {occurrences : Occurrences} (once : (occurrences.map Prod.fst).Nodup)
    (s : Setting) : Given.get? occurrences.reverse s = Given.get? occurrences s := by
  have onceReversed : (occurrences.reverse.map Prod.fst).Nodup := by
    rw [List.map_reverse]
    exact (List.reverse_perm _).nodup_iff.mpr once
  refine Option.ext fun value => ?_
  rw [Given.get?_eq_some_iff onceReversed, Given.get?_eq_some_iff once, List.mem_reverse]

theorem spelled_of_read {arguments : List String} {given : Given}
    (h : read arguments environment = .ok given) :
    ∃ occurrences, Spelled occurrences arguments ∧ Acceptable occurrences environment ∧
      ∀ s, given.get? s = source? occurrences environment s := by
  obtain ⟨_, reads, added⟩ := read_eq_ok_iff.mp h
  obtain ⟨occurrences, spelled, once, each, rfl⟩ := reads_start_iff.mp reads
  obtain ⟨admitted, values⟩ := foldlM_addVariable_spec Setting.nodup_all added
  simp only [Setting.mem_all, if_true, Given.get?_reverse once] at values
  refine ⟨occurrences, spelled, ⟨once, fun s value found => ?_⟩, values⟩
  rcases Option.or_eq_some_iff.mp found with onLine | ⟨free, set⟩
  · exact each _ ((Given.get?_eq_some_iff once).mp onLine)
  · exact admitted s (Setting.mem_all s) value ((Given.get?_reverse once s).trans free) set

theorem read_of_spelled {occurrences : Occurrences} {arguments : List String}
    (spelled : Spelled occurrences arguments) (h : Acceptable occurrences environment) :
    ∃ given, read arguments environment = .ok given ∧
      ∀ s, given.get? s = source? occurrences environment s := by
  have each : ∀ o ∈ occurrences, o.1.admits o.2 = true := fun o member =>
    have found := (Given.get?_eq_some_iff h.once).mpr member
    h.admitted o.1 o.2 (Option.or_eq_some_iff.mpr (.inl found))
  have reads := reads_start_iff.mpr ⟨occurrences, spelled, h.once, each, rfl⟩
  have admitted : ∀ s ∈ Setting.all, Admitted environment occurrences.reverse s := by
    intro s _ value free set
    rw [Given.get?_reverse h.once] at free
    exact h.admitted s value (Option.or_eq_some_iff.mpr (.inr ⟨free, set⟩))
  obtain ⟨given, added⟩ := exists_foldlM_addVariable Setting.nodup_all admitted
  obtain ⟨-, values⟩ := foldlM_addVariable_spec Setting.nodup_all added
  simp only [Setting.mem_all, if_true, Given.get?_reverse h.once] at values
  exact ⟨given, read_eq_ok_iff.mpr ⟨_, reads, added⟩, values⟩

end

end PodWebhook.Command

import PodWebhook.Proofs.Command.Spelling
import PodWebhook.Proofs.Outcomes

/-!
Reading what a command line says. Arguments are read as what they spell, as far as it may be given
(`Reading.reads_of_spelled`), and what is read has been spelled (`Reading.continues_of_reads`).
-/

namespace PodWebhook.Command

namespace Reading

section

variable {r : Reading}

theorem long_option (s : Setting) (value : Option String) :
    r.long s.option value = r.setting s value := by
  cases s <;> rfl

theorem step_argument (live : r.ended = false) (s : Setting) (value : Option String) :
    r.step (s.argument value) = r.setting s value := by
  obtain ⟨c, rest, body⟩ := s.exists_body value
  have split := Setting.splitValue_body s.not_mem_option value
  rw [step, live, if_neg Bool.false_ne_true, s.toList_argument, body]
  rw [body] at split
  simp only [split, long_option]

theorem step_dashes (live : r.ended = false) :
    r.step "--" = .ok { r with ended := true } := by
  rw [step, live]
  rfl

theorem step_plain (live : r.ended = false) {argument : String} (plain : ¬ IsDashed argument) :
    r.step argument = r.plain argument := by
  rw [step, live, if_neg Bool.false_ne_true]
  split
  · next dashed => exact absurd ⟨_, _, dashed⟩ plain
  · next dashed => exact absurd ⟨_, _, dashed⟩ plain
  · next dashed => exact absurd ⟨_, _, dashed⟩ plain
  · rfl

inductive Takes (r : Reading) : String → Reading → Prop
  | dashes : Takes r "--" { r with ended := true }
  | option {s : Setting} {value : Option String} {next : Reading}
      (h : r.setting s value = .ok next) : Takes r (s.argument value) next
  | plain {argument : String} {next : Reading} (plain : ¬ IsDashed argument)
      (h : r.plain argument = .ok next) : Takes r argument next

theorem after_eq_ok_iff {next : Reading} {f : Reading → Except Stop Reading} :
    r.after f = .ok next ↔ ∃ settled, r.settle = .ok settled ∧ f settled = .ok next := by
  rw [after]
  cases r.settle <;> simp

theorem setting_of_long {name : String} {value : Option String} {next : Reading}
    (h : r.long name value = .ok next) :
    ∃ s : Setting, s.option = name ∧ r.setting s value = .ok next := by
  have never (stop : Stop) (title : String) : r.special stop title value ≠ .ok next := by
    intro h
    unfold special at h
    split at h
    · cases h
    · obtain ⟨_, _, h⟩ := after_eq_ok_iff.mp h
      cases h
  unfold long at h
  split at h
  · exact absurd h (never _ _)
  · exact absurd h (never _ _)
  · split at h
    · next s found => exact ⟨s, Setting.option_of_ofOption? found, h⟩
    · cases h

theorem short_ne_ok (c : Char) (next : Reading) : r.short c ≠ .ok next := by
  intro h
  unfold short at h
  split at h
  · obtain ⟨_, _, h⟩ := after_eq_ok_iff.mp h
    cases h
  · obtain ⟨_, _, h⟩ := after_eq_ok_iff.mp h
    cases h
  · cases h

theorem takes_of_step (live : r.ended = false) {argument : String} {next : Reading}
    (h : r.step argument = .ok next) : r.Takes argument next := by
  rw [step, live, if_neg Bool.false_ne_true] at h
  split at h
  · next chars =>
    obtain rfl : argument = "--" := String.toList_inj.mp chars
    rw [← Except.ok.inj h]
    exact .dashes
  · next text _ chars =>
    obtain ⟨s, named, set⟩ := setting_of_long h
    have split : splitValue text = (s.option, (splitValue text).2) := Prod.ext named.symm rfl
    have same : argument = s.argument (splitValue text).2 := by
      rw [← String.toList_inj, chars, s.toList_argument, ← Setting.body_of_splitValue split]
    rw [same]
    exact .option set
  · exact absurd h (short_ne_ok _ next)
  · next other =>
    refine .plain ?_ h
    rintro ⟨c, rest, dashed⟩
    exact other c rest dashed

end

end Reading

namespace Given

def assignAll (given : Given) (occurrences : Occurrences) : Except UsageError Given :=
  occurrences.foldlM (fun given o => given.assign o.1 o.2) given

theorem assignAll_append {given last : Given} {first rest : Occurrences} :
    given.assignAll (first ++ rest) = .ok last ↔
      ∃ middle, given.assignAll first = .ok middle ∧ middle.assignAll rest = .ok last := by
  rw [assignAll, List.foldlM_append]
  exact bind_eq_ok_iff

theorem assignAll_append_cons {given last : Given} {first rest : Occurrences} {s : Setting}
    {value : String} :
    given.assignAll (first ++ (s, value) :: rest) = .ok last ↔
      ∃ middle, given.assignAll (first ++ [(s, value)]) = .ok middle ∧
        middle.assignAll rest = .ok last := by
  rw [← List.singleton_append, ← List.append_assoc]
  exact assignAll_append

theorem assignAll_singleton (given : Given) (s : Setting) (value : String) :
    given.assignAll [(s, value)] = given.assign s value := by
  rw [assignAll, List.foldlM_cons]
  cases given.assign s value <;> rfl

end Given

namespace Reading

/-- The value that has been read and not yet settled; none while it is still missing. -/
def waiting? (pending : Option (Setting × Option String)) : Option Occurrences :=
  match pending with
  | none => some []
  | some (s, some value) => some [(s, value)]
  | some (_, none) => none

def Reads (r : Reading) (arguments : List String) (given : Given) : Prop :=
  ∃ last settled, arguments.foldlM step r = .ok last ∧ last.settle = .ok settled ∧
    settled.given = given

section

variable {r next : Reading}

theorem settle_eq_ok_iff {settled : Reading} :
    r.settle = .ok settled ↔
      ∃ waiting given, waiting? r.pending = some waiting ∧
        r.given.assignAll waiting = .ok given ∧ settled = ⟨given, none, r.ended⟩ := by
  obtain ⟨given, pending, ended⟩ := r
  rcases pending with _ | ⟨s, _ | value⟩
  · simp [settle, waiting?, Given.assignAll, pure, Except.pure, eq_comm]
  · simp [settle, waiting?]
  · cases assigned : given.assign s value with
    | error error => simp [settle, waiting?, assigned, Given.assignAll_singleton]
    | ok given => simp [settle, waiting?, assigned, Given.assignAll_singleton, eq_comm]

theorem reads_nil {given : Given} :
    r.Reads [] given ↔
      ∃ waiting, waiting? r.pending = some waiting ∧ r.given.assignAll waiting = .ok given := by
  constructor
  · rintro ⟨_, settled, ⟨⟩, h, rfl⟩
    obtain ⟨waiting, given, wait, assigned, rfl⟩ := settle_eq_ok_iff.mp h
    exact ⟨waiting, wait, assigned⟩
  · rintro ⟨waiting, wait, assigned⟩
    exact ⟨r, _, rfl, settle_eq_ok_iff.mpr ⟨waiting, given, wait, assigned, rfl⟩, rfl⟩

theorem reads_cons {argument : String} {arguments : List String} {given : Given} :
    r.Reads (argument :: arguments) given ↔
      ∃ next, r.step argument = .ok next ∧ next.Reads arguments given := by
  simp only [Reads, List.foldlM_cons, bind_eq_ok_iff]
  constructor
  · rintro ⟨last, settled, ⟨next, step, rest⟩, h⟩
    exact ⟨next, step, last, settled, rest, h⟩
  · rintro ⟨next, step, last, settled, rest, h⟩
    exact ⟨last, settled, ⟨next, step, rest⟩, h⟩

theorem assign_eq_ok_iff {s : Setting} {value : String} :
    r.assign s value = .ok next ↔
      ∃ given, r.given.assign s value = .ok given ∧ next = { r with given := given } := by
  rw [assign]
  cases r.given.assign s value <;> simp [eq_comm]

theorem after_assign_eq_ok_iff {s : Setting} {value : String} :
    r.after (assign s value) = .ok next ↔
      ∃ waiting given, waiting? r.pending = some waiting ∧
        r.given.assignAll (waiting ++ [(s, value)]) = .ok given ∧
        next = ⟨given, none, r.ended⟩ := by
  simp only [after_eq_ok_iff, settle_eq_ok_iff, assign_eq_ok_iff, Given.assignAll_append,
    Given.assignAll_singleton]
  constructor
  · rintro ⟨_, ⟨waiting, middle, wait, first, rfl⟩, given, last, rfl⟩
    exact ⟨waiting, given, wait, ⟨middle, first, last⟩, rfl⟩
  · rintro ⟨waiting, given, wait, ⟨middle, first, last⟩, rfl⟩
    exact ⟨_, ⟨waiting, middle, wait, first, rfl⟩, given, last, rfl⟩

theorem setting_attached {s : Setting} (valued : s.form?.isSome = true) (value : String) :
    r.setting s (some value) = r.after (assign s value) := by
  obtain ⟨form, isForm⟩ := Option.isSome_iff_exists.mp valued
  unfold setting
  rw [isForm]

theorem setting_apart {s : Setting} (valued : s.form?.isSome = true) :
    r.setting s none = r.after fun r => .ok { r with pending := some (s, none) } := by
  obtain ⟨form, isForm⟩ := Option.isSome_iff_exists.mp valued
  unfold setting
  rw [isForm]

theorem setting_switch {s : Setting} (bare : s.form?.isSome = false) :
    r.setting s none = r.after (assign s "true") := by
  unfold setting
  rw [Option.isSome_eq_false_iff, Option.isNone_iff_eq_none] at bare
  rw [bare]

theorem setting_needless {s : Setting} (bare : s.form?.isSome = false) (value : String) :
    r.setting s (some value) ≠ .ok next := by
  unfold setting
  rw [Option.isSome_eq_false_iff, Option.isNone_iff_eq_none] at bare
  rw [bare]
  exact nofun

theorem reads_of_spelled {occurrences : Occurrences} {arguments : List String}
    (h : Spelled occurrences arguments) {r : Reading} (live : r.ended = false)
    {waiting : Occurrences} (wait : waiting? r.pending = some waiting) {given : Given}
    (assigned : r.given.assignAll (waiting ++ occurrences) = .ok given) :
    r.Reads arguments given := by
  induction h generalizing r waiting with
  | nothing =>
      rw [List.append_nil] at assigned
      exact reads_nil.mpr ⟨waiting, wait, assigned⟩
  | ended =>
      rw [List.append_nil] at assigned
      exact reads_cons.mpr ⟨_, step_dashes live, reads_nil.mpr ⟨waiting, wait, assigned⟩⟩
  | @attached s value occurrences arguments valued h ih =>
      obtain ⟨middle, first, rest⟩ := Given.assignAll_append_cons.mp assigned
      refine reads_cons.mpr ⟨⟨middle, none, r.ended⟩, ?_, ih live rfl rest⟩
      rw [step_argument live, setting_attached valued]
      exact after_assign_eq_ok_iff.mpr ⟨waiting, middle, wait, first, rfl⟩
  | @apart s value occurrences arguments valued plain h ih =>
      obtain ⟨middle, first, rest⟩ := Given.assignAll_append.mp assigned
      have owing : r.step (s.argument none) = .ok ⟨middle, some (s, none), r.ended⟩ := by
        rw [step_argument live, setting_apart valued]
        exact after_eq_ok_iff.mpr ⟨_, settle_eq_ok_iff.mpr ⟨waiting, middle, wait, first, rfl⟩, rfl⟩
      have stillLive : (⟨middle, some (s, none), r.ended⟩ : Reading).ended = false := live
      refine reads_cons.mpr ⟨_, owing, reads_cons.mpr
        ⟨⟨middle, some (s, some value), r.ended⟩, ?_, ?_⟩⟩
      · exact (step_plain stillLive plain).trans rfl
      · exact ih live rfl rest
  | @switch s occurrences arguments bare h ih =>
      obtain ⟨middle, first, rest⟩ := Given.assignAll_append_cons.mp assigned
      refine reads_cons.mpr ⟨⟨middle, none, r.ended⟩, ?_, ih live rfl rest⟩
      rw [step_argument live, setting_switch bare]
      exact after_assign_eq_ok_iff.mpr ⟨waiting, middle, wait, first, rfl⟩

/-- The arguments go on where a value waits or is missing, and give these values with it. -/
inductive Continues (pending : Option (Setting × Option String)) :
    Occurrences → List String → Prop
  | settled {waiting occurrences : Occurrences} {arguments : List String}
      (wait : waiting? pending = some waiting) (h : Spelled occurrences arguments) :
      Continues pending (waiting ++ occurrences) arguments
  | owing {s : Setting} {value : String} {occurrences : Occurrences} {arguments : List String}
      (missing : pending = some (s, none)) (plain : ¬ IsDashed value)
      (h : Spelled occurrences arguments) :
      Continues pending ((s, value) :: occurrences) (value :: arguments)

theorem Continues.spelled {occurrences : Occurrences} {arguments : List String}
    (h : Continues none occurrences arguments) : Spelled occurrences arguments := by
  cases h with
  | settled wait h =>
      obtain rfl := Option.some.inj wait
      exact h
  | owing missing => cases missing

theorem nil_of_ended (ended : r.ended = true) {arguments : List String} {given : Given}
    (h : r.Reads arguments given) : arguments = [] := by
  cases arguments with
  | nil => rfl
  | cons argument arguments =>
      obtain ⟨next, step, -⟩ := reads_cons.mp h
      rw [Reading.step, if_pos ended] at step
      cases step

theorem continues_of_reads {arguments : List String} {r : Reading} (live : r.ended = false)
    {given : Given} (h : r.Reads arguments given) :
    ∃ occurrences, Continues r.pending occurrences arguments ∧
      r.given.assignAll occurrences = .ok given := by
  induction arguments generalizing r with
  | nil =>
      obtain ⟨waiting, wait, assigned⟩ := reads_nil.mp h
      exact ⟨waiting ++ [], .settled wait .nothing, by rwa [List.append_nil]⟩
  | cons argument arguments ih =>
      obtain ⟨next, step, rest⟩ := reads_cons.mp h
      have goesOn (stillLive : next.ended = false) := ih stillLive rest
      cases takes_of_step live step with
      | dashes =>
          obtain rfl := nil_of_ended rfl rest
          obtain ⟨waiting, wait, assigned⟩ := reads_nil.mp rest
          exact ⟨waiting ++ [], .settled wait .ended, by rwa [List.append_nil]⟩
      | @option s value _ set =>
          cases valued : s.form?.isSome with
          | true =>
              cases value with
              | some value =>
                  rw [setting_attached valued] at set
                  obtain ⟨waiting, middle, wait, first, rfl⟩ := after_assign_eq_ok_iff.mp set
                  obtain ⟨occurrences, spelled, last⟩ := goesOn live
                  exact ⟨waiting ++ (s, value) :: occurrences,
                    .settled wait (.attached valued spelled.spelled),
                    Given.assignAll_append_cons.mpr ⟨middle, first, last⟩⟩
              | none =>
                  rw [setting_apart valued] at set
                  obtain ⟨_, settled, made⟩ := after_eq_ok_iff.mp set
                  obtain ⟨waiting, middle, wait, first, rfl⟩ := settle_eq_ok_iff.mp settled
                  obtain rfl := Except.ok.inj made
                  obtain ⟨occurrences, spelled, last⟩ := goesOn live
                  refine ⟨waiting ++ occurrences, ?_,
                    Given.assignAll_append.mpr ⟨middle, first, last⟩⟩
                  cases spelled with
                  | settled wait => cases wait
                  | owing missing plain others =>
                      cases missing
                      exact .settled wait (.apart valued plain others)
          | false =>
              cases value with
              | some value => exact absurd set (setting_needless valued value)
              | none =>
                  rw [setting_switch valued] at set
                  obtain ⟨waiting, middle, wait, first, rfl⟩ := after_assign_eq_ok_iff.mp set
                  obtain ⟨occurrences, spelled, last⟩ := goesOn live
                  exact ⟨waiting ++ (s, "true") :: occurrences,
                    .settled wait (.switch valued spelled.spelled),
                    Given.assignAll_append_cons.mpr ⟨middle, first, last⟩⟩
      | plain plain set =>
          unfold Reading.plain at set
          split at set
          · next s missing =>
            obtain rfl := Except.ok.inj set
            obtain ⟨occurrences, spelled, last⟩ := goesOn live
            cases spelled with
            | settled wait h =>
                obtain rfl := Option.some.inj wait
                exact ⟨_, .owing missing plain h, last⟩
            | owing missing => cases missing
          · cases set

end

end Reading

end PodWebhook.Command

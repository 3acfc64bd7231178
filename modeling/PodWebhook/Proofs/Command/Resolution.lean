import PodWebhook.Proofs.Command.Configuration
import PodWebhook.Proofs.Command.Sources

/-!
From arguments and environment to a configuration. Each setting has the value of its own sources,
whatever the others are and in whatever order they are given.
-/

namespace PodWebhook

namespace Command

def Gives (arguments : List String) (s : Setting) (value : String) : Prop :=
  ∃ occurrences, Spelled occurrences arguments ∧ (s, value) ∈ occurrences

/-- Each setting has the value of its only occurrence among the arguments, else that of its
variable, else its default; and the order of the arguments is of no account. -/
structure Resolves (arguments : List String) (environment : Environment)
    (value : Setting → String) : Prop where
  once : ∃ occurrences, Spelled occurrences arguments ∧
    (∀ others, Spelled others arguments → others = occurrences) ∧
    (occurrences.map Prod.fst).Nodup
  onLine (s : Setting) (v : String) : Gives arguments s v → value s = v
  fromEnvironment (s : Setting) (v : String) : (∀ w, ¬ Gives arguments s w) →
    environment.get? s.envVar = some v → value s = v
  byDefault (s : Setting) : (∀ w, ¬ Gives arguments s w) →
    environment.get? s.envVar = none → value s = s.default
  anyOrder (occurrences reordered : Occurrences) (others : List String) :
    Spelled occurrences arguments → Spelled reordered others → reordered.Perm occurrences →
    ∃ given, read others environment = .ok given ∧ given.value = value

theorem gives_iff {occurrences : Occurrences} {arguments : List String}
    (h : Spelled occurrences arguments) {s : Setting} {value : String} :
    Gives arguments s value ↔ (s, value) ∈ occurrences :=
  ⟨fun ⟨_, spelled, member⟩ => h.unique spelled ▸ member, fun member => ⟨occurrences, h, member⟩⟩

theorem value_of_source {occurrences : Occurrences} {environment : Environment} {given : Given}
    (values : ∀ s, given.get? s = source? occurrences environment s) (s : Setting) :
    given.value s = (source? occurrences environment s).getD s.default := by
  rw [Given.value, values]

theorem source?_perm {occurrences reordered : Occurrences} {environment : Environment}
    (once : (occurrences.map Prod.fst).Nodup) (order : reordered.Perm occurrences) (s : Setting) :
    source? reordered environment s = source? occurrences environment s := by
  have onceReordered : (reordered.map Prod.fst).Nodup := (order.map Prod.fst).nodup_iff.mpr once
  have same : Given.get? reordered s = Given.get? occurrences s := by
    refine Option.ext fun value => ?_
    rw [Given.get?_eq_some_iff onceReordered, Given.get?_eq_some_iff once, order.mem_iff]
  rw [source?, source?, same]

theorem resolves_of_read {arguments : List String} {environment : Environment} {given : Given}
    (h : read arguments environment = .ok given) :
    Resolves arguments environment given.value := by
  obtain ⟨occurrences, spelled, acceptable, values⟩ := spelled_of_read h
  have value := value_of_source values
  have absent {s : Setting} (h : ∀ w, ¬ Gives arguments s w) : Given.get? occurrences s = none := by
    refine Given.get?_eq_none_iff.mpr fun w member => h w ((gives_iff spelled).mpr member)
  refine ⟨⟨occurrences, spelled, fun others => spelled.unique, acceptable.once⟩, ?_, ?_, ?_, ?_⟩
  · intro s v gives
    have found := (Given.get?_eq_some_iff acceptable.once).mpr ((gives_iff spelled).mp gives)
    rw [value, source?, found]
    rfl
  · intro s v none set
    rw [value, source?, absent none, set]
    rfl
  · intro s none unset
    rw [value, source?, absent none, unset]
    rfl
  · intro first reordered others firstSpelled othersSpelled order
    obtain rfl := spelled.unique firstSpelled
    have same (s : Setting) : source? reordered environment s = source? first environment s :=
      source?_perm acceptable.once order s
    have again : Acceptable reordered environment :=
      ⟨(order.map Prod.fst).nodup_iff.mpr acceptable.once, fun s v found =>
        acceptable.admitted s v ((same s).symm.trans found)⟩
    obtain ⟨given', reads, values'⟩ := read_of_spelled othersSpelled again
    refine ⟨given', reads, funext fun s => ?_⟩
    rw [value, value_of_source values', same]

def SameSources (s : Setting) (arguments : List String) (environment : Environment)
    (arguments' : List String) (environment' : Environment) : Prop :=
  (∀ v, Gives arguments' s v ↔ Gives arguments s v) ∧
    environment'.get? s.envVar = environment.get? s.envVar

theorem value_eq_of_sameSources {arguments arguments' : List String}
    {environment environment' : Environment} {given given' : Given}
    (h : read arguments environment = .ok given) (h' : read arguments' environment' = .ok given')
    {s : Setting} (same : SameSources s arguments environment arguments' environment') :
    given'.value s = given.value s := by
  obtain ⟨occurrences, spelled, acceptable, values⟩ := spelled_of_read h
  obtain ⟨occurrences', spelled', acceptable', values'⟩ := spelled_of_read h'
  have onLine : Given.get? occurrences' s = Given.get? occurrences s := by
    refine Option.ext fun value => ?_
    rw [Given.get?_eq_some_iff acceptable'.once, Given.get?_eq_some_iff acceptable.once,
      ← gives_iff spelled', ← gives_iff spelled, same.1]
  rw [value_of_source values, value_of_source values', source?, source?, onLine, same.2]

namespace Setting

theorem option_injective {s t : Setting} (h : s.option = t.option) : s = t := by
  have found := s.ofOption?_option
  rw [h, t.ofOption?_option] at found
  exact (Option.some.inj found).symm

theorem envVar_injective {s t : Setting} (h : s.envVar = t.envVar) : s = t := by
  have found (s : Setting) : all.find? (fun t => t.envVar == s.envVar) = some s := by
    cases s <;> rfl
  have same := found s
  rw [h, found t] at same
  exact (Option.some.inj same).symm

end Setting

/-- What the program takes from arguments and environment. Every setting is resolved from its own
sources, which it shares with no other one, and those that have a value on the command line are
listed with their options, variables and defaults. The values are judged in a fixed order; a
configuration shows each of them; and where two command lines differ only in one setting, so do the
configurations. -/
theorem read_configures {arguments : List String} {environment : Environment} {given : Given}
    (accepted : read arguments environment = .ok given) :
    Resolves arguments environment given.value ∧
    (Setting.all.filter (·.form?.isSome)).map (fun s => (s, s.option, s.envVar, s.default)) =
      [(.address, "addr", "WEBHOOK_BIND_ADDRESS", "0.0.0.0"),
        (.certFile, "cert-file", "WEBHOOK_CERT_FILE", ""),
        (.containerName, "container-name", "WEBHOOK_CONTAINER_NAME", "open-service-broker-azure"),
        (.keyFile, "key-file", "WEBHOOK_KEY_FILE", ""),
        (.labelKey, "label-key", "WEBHOOK_LABEL_KEY", "chart"),
        (.labelValue, "label-value", "WEBHOOK_LABEL_VALUE", "azure-service-broker-0.0.1"),
        (.logFormat, "log-fmt", "WEBHOOK_LOG_FMT", "text"),
        (.logLevel, "log-level", "WEBHOOK_LOG_LEVEL", "info"),
        (.port, "port", "WEBHOOK_PORT", "9443"),
        (.targetImage, "target-image", "WEBHOOK_TARGET_IMAGE",
          "eu.gcr.io/kyma-project/external/azure-service-broker:v1.5.0")] ∧
    (∀ s t : Setting, s.option = t.option ∨ s.envVar = t.envVar → s = t) ∧
    Config.Judged given.value ∧
    (∀ config, Config.ofValues given.value = .ok config → config.Shows given.value) ∧
    ∀ arguments' environment' given' t, read arguments' environment' = .ok given' →
      (∀ s, s ≠ t → SameSources s arguments environment arguments' environment') →
      (∀ s, s ≠ t → given'.value s = given.value s) ∧
      ∀ config config', Config.ofValues given.value = .ok config →
        Config.ofValues given'.value = .ok config' → Config.AgreesBut t config config' := by
  refine ⟨resolves_of_read accepted, rfl, ?_, Config.judged given.value,
    fun config => Config.shows_of_ofValues, ?_⟩
  · rintro s t (option | exported)
    · exact Setting.option_injective option
    · exact Setting.envVar_injective exported
  · intro arguments' environment' given' t accepted' same
    have values : ∀ s, s ≠ t → given'.value s = given.value s := fun s apart =>
      value_eq_of_sameSources accepted accepted' (same s apart)
    refine ⟨values, fun config config' made made' => ?_⟩
    exact Config.agreesBut_of_shows (Config.shows_of_ofValues made) (Config.shows_of_ofValues made')
      values

/-- An option and a variable that are set to nothing are set; an option prevails; the rest is as it
is by default. -/
theorem read_configures_nothing :
    let arguments := ["--port=1", "--label-key", "", "--log-no-color"]
    let environment := [("WEBHOOK_LABEL_VALUE", ""), ("WEBHOOK_PORT", "2")]
    let given : Given := [(.labelValue, ""), (.noColor, "true"), (.labelKey, ""), (.port, "1")]
    read arguments environment = .ok given ∧
      Resolves arguments environment given.value ∧ Config.Judged given.value ∧
      ∃ config, Config.ofValues given.value = .ok config ∧
        config.address = ⟨.v4 ⟨0, 0, 0, 0⟩, 1⟩ ∧ config.tls = none ∧
        config.policy.containerName = "open-service-broker-azure" ∧
        config.logLevel = "info" ∧ config.logFormat = "text" := by
  intro arguments environment given
  have accepted : read arguments environment = .ok given := by decide +kernel
  obtain ⟨resolves, -, -, judged, shows, -⟩ := read_configures accepted
  obtain ⟨config, made⟩ := judged.ok.mpr ⟨by decide +kernel, by decide, by decide⟩
  have shown := shows config made
  have address : Net.SocketAddress.parse? (Config.addressText given.value) =
      some ⟨.v4 ⟨0, 0, 0, 0⟩, 1⟩ := by decide +kernel
  exact ⟨accepted, resolves, judged, config, made,
    Option.some.inj (shown.address.symm.trans address), shown.noTls.mpr ⟨rfl, rfl⟩,
    shown.containerName, shown.logLevel, shown.logFormat⟩

end Command

end PodWebhook

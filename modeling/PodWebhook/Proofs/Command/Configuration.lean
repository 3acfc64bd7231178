import Mathlib.Logic.Function.Basic
import PodWebhook.Command.Config

/-!
From values to a configuration. Each field of a configuration shows the value of its own setting,
and what cannot be configured is reported in a fixed order.
-/

namespace PodWebhook

namespace Config

section

variable {value : Command.Setting → String}

def addressText (value : Command.Setting → String) : String :=
  value .address ++ ":" ++ value .port

def Paired (value : Command.Setting → String) : Prop :=
  value .certFile = "" ↔ value .keyFile = ""

structure Shows (config : Config) (value : Command.Setting → String) : Prop where
  address : Net.SocketAddress.parse? (addressText value) = some config.address
  noTls : config.tls = none ↔ value .certFile = "" ∧ value .keyFile = ""
  tls (files : TlsFiles) : config.tls = some files ↔
    value .certFile ≠ "" ∧ value .keyFile ≠ "" ∧ files = ⟨value .certFile, value .keyFile⟩
  labelKey : config.policy.labelKey = value .labelKey
  labelValue : config.policy.labelValue = value .labelValue
  containerName : config.policy.containerName = value .containerName
  image : config.policy.image = value .targetImage
  image_ne : config.policy.image ≠ ""
  ignoreConnectionFailure :
    config.ignoreConnectionFailure = true ↔ value .ignoreConnectionFailure = "true"
  logLevel : config.logLevel = value .logLevel
  logFormat : config.logFormat = value .logFormat
  noColor : config.noColor = true ↔ value .noColor = "true"

theorem isEmpty_eq_decide (text : String) : text.isEmpty = decide (text = "") := by
  by_cases h : text = ""
  · rw [h]
    rfl
  · rw [decide_eq_false h, String.isEmpty_eq_false_iff.mpr h]

instance (value : Command.Setting → String) : Decidable (Paired value) :=
  inferInstanceAs (Decidable (_ ↔ _))

theorem tlsFiles_eq (value : Command.Setting → String) :
    tlsFiles (value .certFile) (value .keyFile) =
      if Paired value then
        .ok (if value .certFile = "" then none else some ⟨value .certFile, value .keyFile⟩)
      else .error .tlsFiles := by
  by_cases cert : value .certFile = "" <;> by_cases key : value .keyFile = "" <;>
    simp [tlsFiles, Paired, isEmpty_eq_decide, cert, key]

def assembled (value : Command.Setting → String) (address : Net.SocketAddress) : Config where
  address := address
  tls := if value .certFile = "" then none else some ⟨value .certFile, value .keyFile⟩
  policy := policyOf value
  ignoreConnectionFailure := value .ignoreConnectionFailure == "true"
  logLevel := value .logLevel
  logFormat := value .logFormat
  noColor := value .noColor == "true"

/-- The values are judged by the address, then by the files for TLS, then by the image. -/
theorem ofValues_eq (value : Command.Setting → String) :
    ofValues value =
      match Net.SocketAddress.parse? (addressText value) with
      | none => .error .address
      | some address =>
        if Paired value then
          if value .targetImage = "" then .error .noImage else .ok (assembled value address)
        else .error .tlsFiles := by
  unfold ofValues
  rw [tlsFiles_eq, addressText, isEmpty_eq_decide]
  cases Net.SocketAddress.parse? (value .address ++ ":" ++ value .port) with
  | none => rfl
  | some address =>
      by_cases paired : Paired value
      · simp only [if_pos paired, decide_eq_true_eq]
        rfl
      · simp only [if_neg paired]

theorem shows_assembled {address : Net.SocketAddress} (paired : Paired value)
    (image : value .targetImage ≠ "")
    (parsed : Net.SocketAddress.parse? (addressText value) = some address) :
    (assembled value address).Shows value where
  address := parsed
  noTls := by
    by_cases cert : value .certFile = ""
    · simp [assembled, cert, paired.mp cert]
    · simp [assembled, cert]
  tls files := by
    by_cases cert : value .certFile = ""
    · simp [assembled, cert]
    · have key : value .keyFile ≠ "" := fun key => cert (paired.mpr key)
      simp [assembled, cert, key, eq_comm]
  labelKey := rfl
  labelValue := rfl
  containerName := rfl
  image := rfl
  image_ne := image
  ignoreConnectionFailure := beq_iff_eq
  logLevel := rfl
  logFormat := rfl
  noColor := beq_iff_eq

theorem shows_of_ofValues {config : Config} (h : ofValues value = .ok config) :
    config.Shows value := by
  rw [ofValues_eq] at h
  split at h
  · cases h
  · next address parsed =>
    split at h
    · next paired =>
      split at h
      · cases h
      · next image =>
        obtain rfl := Except.ok.inj h
        exact shows_assembled paired image parsed
    · cases h

/-- Which values make a configuration, and what is reported of the others. -/
structure Judged (value : Command.Setting → String) : Prop where
  ok : (∃ config, ofValues value = .ok config) ↔
    Net.SocketAddress.parse? (addressText value) ≠ none ∧ Paired value ∧ value .targetImage ≠ ""
  address : ofValues value = .error .address ↔
    Net.SocketAddress.parse? (addressText value) = none
  tlsFiles : ofValues value = .error .tlsFiles ↔
    Net.SocketAddress.parse? (addressText value) ≠ none ∧ ¬ Paired value
  noImage : ofValues value = .error .noImage ↔
    Net.SocketAddress.parse? (addressText value) ≠ none ∧ Paired value ∧ value .targetImage = ""

theorem judged (value : Command.Setting → String) : Judged value := by
  have outcome := ofValues_eq value
  cases parsed : Net.SocketAddress.parse? (addressText value) with
  | none =>
      rw [parsed] at outcome
      constructor <;> simp [outcome, parsed]
  | some address =>
      by_cases paired : Paired value
      · by_cases image : value .targetImage = ""
        · simp only [parsed, if_pos paired, if_pos image] at outcome
          constructor <;> simp [outcome, parsed, paired, image]
        · simp only [parsed, if_pos paired, if_neg image] at outcome
          constructor <;> simp [outcome, parsed, paired, image]
      · simp only [parsed, if_neg paired] at outcome
        constructor <;> simp [outcome, parsed, paired]

structure AgreesBut (t : Command.Setting) (config other : Config) : Prop where
  address : t ≠ .address → t ≠ .port → other.address = config.address
  cert : t ≠ .certFile → other.tls.map (·.cert) = config.tls.map (·.cert)
  key : t ≠ .keyFile → other.tls.map (·.key) = config.tls.map (·.key)
  labelKey : t ≠ .labelKey → other.policy.labelKey = config.policy.labelKey
  labelValue : t ≠ .labelValue → other.policy.labelValue = config.policy.labelValue
  containerName : t ≠ .containerName → other.policy.containerName = config.policy.containerName
  image : t ≠ .targetImage → other.policy.image = config.policy.image
  ignoreConnectionFailure : t ≠ .ignoreConnectionFailure →
    other.ignoreConnectionFailure = config.ignoreConnectionFailure
  logLevel : t ≠ .logLevel → other.logLevel = config.logLevel
  logFormat : t ≠ .logFormat → other.logFormat = config.logFormat
  noColor : t ≠ .noColor → other.noColor = config.noColor

theorem Shows.cert_and_key {config : Config} (h : config.Shows value) :
    config.tls.map (·.cert) = (if value .certFile = "" then none else some (value .certFile)) ∧
      config.tls.map (·.key) = if value .keyFile = "" then none else some (value .keyFile) := by
  cases found : config.tls with
  | none =>
      obtain ⟨cert, key⟩ := h.noTls.mp found
      exact ⟨(if_pos cert).symm, (if_pos key).symm⟩
  | some files =>
      obtain ⟨cert, key, rfl⟩ := (h.tls files).mp found
      exact ⟨(if_neg cert).symm, (if_neg key).symm⟩

theorem agreesBut_of_shows {t : Command.Setting} {other : Command.Setting → String}
    {config config' : Config} (h : config.Shows value) (h' : config'.Shows other)
    (same : ∀ s, s ≠ t → other s = value s) : AgreesBut t config config' where
  address apart apart' := by
    have text : addressText other = addressText value := by
      rw [addressText, addressText, same _ apart.symm, same _ apart'.symm]
    exact Option.some.inj (h'.address.symm.trans (text ▸ h.address))
  cert apart := by
    rw [h.cert_and_key.1, h'.cert_and_key.1, same _ apart.symm]
  key apart := by
    rw [h.cert_and_key.2, h'.cert_and_key.2, same _ apart.symm]
  labelKey apart := by rw [h.labelKey, h'.labelKey, same _ apart.symm]
  labelValue apart := by rw [h.labelValue, h'.labelValue, same _ apart.symm]
  containerName apart := by rw [h.containerName, h'.containerName, same _ apart.symm]
  image apart := by rw [h.image, h'.image, same _ apart.symm]
  ignoreConnectionFailure apart := by
    rw [Bool.eq_iff_iff, h.ignoreConnectionFailure, h'.ignoreConnectionFailure, same _ apart.symm]
  logLevel apart := by rw [h.logLevel, h'.logLevel, same _ apart.symm]
  logFormat apart := by rw [h.logFormat, h'.logFormat, same _ apart.symm]
  noColor apart := by rw [Bool.eq_iff_iff, h.noColor, h'.noColor, same _ apart.symm]

theorem ofValues_noColor {other : Command.Setting → String}
    (same : ∀ s, s ≠ .noColor → other s = value s) :
    ofValues other =
      (ofValues value).map fun config => { config with noColor := other .noColor == "true" } := by
  rw [Function.eq_update_iff.mpr ⟨rfl, same⟩]
  generalize other .noColor = noColor
  -- Apart from its own field, nothing that is looked at is the value that is replaced.
  have replaced : ofValues (Function.update value .noColor noColor) =
      match Net.SocketAddress.parse? (addressText value) with
      | none => .error .address
      | some address =>
        if Paired value then
          if value .targetImage = "" then .error .noImage
          else .ok { assembled value address with noColor := noColor == "true" }
        else .error .tlsFiles := ofValues_eq _
  rw [replaced, ofValues_eq]
  cases Net.SocketAddress.parse? (addressText value) with
  | none => rfl
  | some address =>
      by_cases paired : Paired value
      · by_cases image : value .targetImage = ""
        · simp only [if_pos paired, if_pos image]
          rfl
        · simp only [if_pos paired, if_neg image]
          rfl
      · simp only [if_neg paired]
        rfl

end

end Config

end PodWebhook

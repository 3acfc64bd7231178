import PodWebhook.Pod.ImagePolicy

/-!
What can be set from outside. Each setting has an option on the command line, a variable in the
environment and a default value; a switch has the values true and false.
-/

namespace PodWebhook.Command

/-- The settings, in the order in which they are listed and looked up in the environment. -/
inductive Setting where
  | address
  | certFile
  | containerName
  | ignoreConnectionFailure
  | keyFile
  | labelKey
  | labelValue
  | logFormat
  | logLevel
  | noColor
  | port
  | targetImage
  deriving DecidableEq, Repr

structure ValueForm where
  placeholder : String
  default : String
  /-- The values that are let through; any value if there are none. -/
  choices : List String
  deriving Repr

namespace Setting

def all : List Setting :=
  [address, certFile, containerName, ignoreConnectionFailure, keyFile, labelKey, labelValue,
    logFormat, logLevel, noColor, port, targetImage]

theorem mem_all (s : Setting) : s ∈ all := by
  cases s <;> decide

def option : Setting → String
  | address => "addr"
  | certFile => "cert-file"
  | containerName => "container-name"
  | ignoreConnectionFailure => "ignore-kubernetes-connection-failure"
  | keyFile => "key-file"
  | labelKey => "label-key"
  | labelValue => "label-value"
  | logFormat => "log-fmt"
  | logLevel => "log-level"
  | noColor => "log-no-color"
  | port => "port"
  | targetImage => "target-image"

def envVar : Setting → String
  | address => "WEBHOOK_BIND_ADDRESS"
  | certFile => "WEBHOOK_CERT_FILE"
  | containerName => "WEBHOOK_CONTAINER_NAME"
  | ignoreConnectionFailure => "WEBHOOK_IGNORE_KUBERNETES_CONNECTION_FAILURE"
  | keyFile => "WEBHOOK_KEY_FILE"
  | labelKey => "WEBHOOK_LABEL_KEY"
  | labelValue => "WEBHOOK_LABEL_VALUE"
  | logFormat => "WEBHOOK_LOG_FMT"
  | logLevel => "WEBHOOK_LOG_LEVEL"
  | noColor => "NO_COLOR"
  | port => "WEBHOOK_PORT"
  | targetImage => "WEBHOOK_TARGET_IMAGE"

/-- The form of the value; a switch takes none on the command line. -/
def form? : Setting → Option ValueForm
  | address => some ⟨"BIND_ADDRESS", "0.0.0.0", []⟩
  | certFile => some ⟨"CERT_FILE", "", []⟩
  | containerName => some ⟨"CONTAINER_NAME", ImagePolicy.standard.containerName, []⟩
  | ignoreConnectionFailure => none
  | keyFile => some ⟨"KEY_FILE", "", []⟩
  | labelKey => some ⟨"LABEL_KEY", ImagePolicy.standard.labelKey, []⟩
  | labelValue => some ⟨"LABEL_VALUE", ImagePolicy.standard.labelValue, []⟩
  | logFormat => some ⟨"LOG_FMT", "text", ["text", "json"]⟩
  | logLevel => some ⟨"LOG_LEVEL", "info", ["trace", "debug", "info", "warn", "error"]⟩
  | noColor => none
  | port => some ⟨"PORT", "9443", []⟩
  | targetImage => some ⟨"IMAGE", ImagePolicy.standard.image, []⟩

def help : Setting → String
  | address => "Bind against ADDRESS"
  | certFile => "Path to an X.509 certificate file for HTTPS"
  | containerName => "Name of the containers whose image is rewritten"
  | ignoreConnectionFailure => "Do not exit with an error if the Kubernetes connection fails"
  | keyFile => "Path to an X.509 private key file for HTTPS"
  | labelKey => "Label a Pod must carry to be mutated"
  | labelValue => "Value the selection label must have"
  | logFormat => "Log output format"
  | logLevel => "Log level"
  | noColor => "Disable colored output for logs"
  | port => "Listen on PORT"
  | targetImage => "Image reference forced on the matching containers"

def default (s : Setting) : String :=
  match s.form? with
  | some form => form.default
  | none => "false"

def choices (s : Setting) : List String :=
  match s.form? with
  | some form => form.choices
  | none => ["true", "false"]

def admits (s : Setting) (value : String) : Bool :=
  s.choices.isEmpty || value ∈ s.choices

def title (s : Setting) : String :=
  match s.form? with
  | some form => "--" ++ s.option ++ " <" ++ form.placeholder ++ ">"
  | none => "--" ++ s.option

def ofOption? (name : String) : Option Setting := all.find? fun s => s.option == name

end Setting

end PodWebhook.Command

import PodWebhook.Command.Line
import PodWebhook.Net.Address

/-!
The configuration that the settings amount to: an address, the files for TLS if there are any, the
image policy and how to log. What cannot be put together is reported in that order.
-/

namespace PodWebhook

open Command Net

structure TlsFiles where
  cert : String
  key : String
  deriving DecidableEq, Repr

inductive ConfigError where
  | address
  | tlsFiles
  | noImage
  deriving DecidableEq, Repr

namespace ConfigError

def reason : ConfigError → String
  | address => "invalid socket address syntax"
  | tlsFiles => "either both --cert-file and --key-file must be provided, or neither"
  | noImage => "--target-image cannot be empty"

def message (error : ConfigError) : String := "error parsing arguments: " ++ error.reason

end ConfigError

structure Config where
  address : SocketAddress
  tls : Option TlsFiles
  policy : ImagePolicy
  ignoreConnectionFailure : Bool
  logLevel : String
  logFormat : String
  noColor : Bool
  deriving DecidableEq, Repr

namespace Config

def tlsFiles (cert key : String) : Except ConfigError (Option TlsFiles) :=
  if cert.isEmpty != key.isEmpty then .error .tlsFiles
  else if cert.isEmpty then .ok none
  else .ok (some ⟨cert, key⟩)

def policyOf (value : Setting → String) : ImagePolicy :=
  ⟨value .labelKey, value .labelValue, value .containerName, value .targetImage⟩

/-- The configuration for the values of all settings. Address and port are read as one text. -/
def ofValues (value : Setting → String) : Except ConfigError Config :=
  match SocketAddress.parse? (value .address ++ ":" ++ value .port) with
  | none => .error .address
  | some address =>
    match tlsFiles (value .certFile) (value .keyFile) with
    | .error error => .error error
    | .ok tls =>
      if (value .targetImage).isEmpty then .error .noImage
      else
        .ok
          { address := address
            tls := tls
            policy := policyOf value
            ignoreConnectionFailure := value .ignoreConnectionFailure == "true"
            logLevel := value .logLevel
            logFormat := value .logFormat
            noColor := value .noColor == "true" }

end Config

end PodWebhook

import PodWebhook.Cluster.Kubeconfig
import PodWebhook.Command.Config
import PodWebhook.Http.Router
import PodWebhook.Tls.Credentials

/-!
Putting a server together: first the connection to the cluster, then certificate and key. A missing
connection is let go if the configuration says so.
-/

namespace PodWebhook

open Tls

structure Surroundings where
  kubeconfig : Option Bytes
  file : String → Option Bytes

inductive StartError where
  | notConnected (error : Cluster.KubeconfigError)
  | credentials (files : TlsFiles) (error : CredentialsError)
  deriving DecidableEq, Repr

namespace StartError

def message : StartError → String
  | notConnected error => "cannot connect to Kubernetes: " ++ error.message
  | credentials files error =>
    "cannot load certificate " ++ files.cert ++ " and key " ++ files.key ++ ": " ++ error.message

end StartError

structure Server where
  address : Net.SocketAddress
  policy : ImagePolicy
  credentials : Option Credentials
  /-- The API server, unless lookups are disabled. -/
  cluster : Option Http.Target

namespace Server

def target : String := "mutating_webhook_server"

def offline (error : Cluster.KubeconfigError) : Event where
  level := .warn
  target := target
  message := "cannot connect to Kubernetes, cluster lookups are disabled"
  fields := [("error", .text error.message)]

def certificateLoaded (files : TlsFiles) : Event where
  level := .info
  target := "mutating_webhook_server::certs"
  message := "TLS certificate loaded"
  fields := [("cert_file", .text files.cert)]

def connect (config : Config) (around : Surroundings) :
    Logged (Except StartError (Option Http.Target)) :=
  match Cluster.serverIn around.kubeconfig with
  | .ok server => ⟨.ok (some server), []⟩
  | .error error =>
    if config.ignoreConnectionFailure then ⟨.ok none, [offline error]⟩
    else ⟨.error (.notConnected error), []⟩

def loadCredentials (config : Config) (around : Surroundings) :
    Logged (Except StartError (Option Credentials)) :=
  match config.tls with
  | none => ⟨.ok none, []⟩
  | some files =>
    match Credentials.load around.file files.cert files.key with
    | .ok credentials => ⟨.ok (some credentials), [certificateLoaded files]⟩
    | .error error => ⟨.error (.credentials files error), []⟩

def start (config : Config) (around : Surroundings) : Logged (Except StartError Server) :=
  let cluster := connect config around
  match cluster.value with
  | .error error => ⟨.error error, cluster.events⟩
  | .ok server =>
    let credentials := loadCredentials config around
    ⟨credentials.value.map fun credentials =>
        ⟨config.address, config.policy, credentials, server⟩,
      cluster.events ++ credentials.events⟩

def respond (server : Server) (host : String) (request : Http.Request) : Logged Http.Response :=
  Http.respond host server.policy.handle request

end Server

end PodWebhook

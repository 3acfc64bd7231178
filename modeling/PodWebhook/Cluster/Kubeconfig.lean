import PodWebhook.Cluster.Reader
import PodWebhook.Yaml.Block

/-!
Connections as a kubeconfig describes them. The current context names a cluster with a server, and
it may name a user; what it names has to be there.
-/

namespace PodWebhook.Cluster

open Schema Http

def namedShape (title field : String) (shape : Shape) : Shape :=
  .record .plain title [("name", .required, .text), (field, .optional, shape)]

def clusterShape : Shape := .record .plain "Cluster" [("server", .optional, .text)]

def contextShape : Shape :=
  .record .plain "Context"
    [("cluster", .required, .text), ("user", .optional, .text), ("namespace", .optional, .text)]

def userShape : Shape := .record .plain "AuthInfo" [("username", .optional, .text)]

def kubeconfigShape : Shape :=
  .record .plain "Kubeconfig"
    [("clusters", .defaulted, .list (namedShape "NamedCluster" "cluster" clusterShape)),
      ("users", .defaulted, .list (namedShape "NamedAuthInfo" "user" userShape)),
      ("contexts", .defaulted, .list (namedShape "NamedContext" "context" contextShape)),
      ("current-context", .optional, .text)]

inductive KubeconfigError where
  | missing
  | malformed
  | noCurrentContext
  | unknownContext (name : String)
  | unknownCluster (name : String)
  | unknownUser (name : String)
  | noServer
  deriving DecidableEq, Repr

namespace KubeconfigError

def message : KubeconfigError → String
  | missing => "there is no kubeconfig"
  | malformed => "the kubeconfig cannot be read"
  | noCurrentContext => "there is no current context"
  | unknownContext name => "the context " ++ Text.quoted name ++ " is not there"
  | unknownCluster name => "the cluster " ++ Text.quoted name ++ " is not there"
  | unknownUser name => "the user " ++ Text.quoted name ++ " is not there"
  | noServer => "the cluster has no server"

end KubeconfigError

def namedFields (name field : String) (entries : List Datum) : Option Fields :=
  (entries.find? fun entry =>
    match entry with
    | .record fields => Fields.text "name" fields == name
    | _ => false).bind fun entry =>
      match entry with
      | .record fields => Fields.record? field fields
      | _ => none

/-- The user of a context must be there if the context names one. -/
def checkUser (context users : Fields) : Except KubeconfigError Unit :=
  match Fields.text? "user" context with
  | none => .ok ()
  | some name =>
    match namedFields name "user" (Fields.list "users" users) with
    | some _ => .ok ()
    | none => .error (.unknownUser name)

def serverOf (fields : Fields) : Except KubeconfigError Target :=
  match Fields.text? "current-context" fields with
  | none => .error .noCurrentContext
  | some name =>
    match namedFields name "context" (Fields.list "contexts" fields) with
    | none => .error (.unknownContext name)
    | some context => do
      let clusterName := Fields.text "cluster" context
      match namedFields clusterName "cluster" (Fields.list "clusters" fields) with
      | none => .error (.unknownCluster clusterName)
      | some cluster =>
        checkUser context fields
        match (Fields.text? "server" cluster).map Target.parse with
        | some (.ok target) => .ok target
        | _ => .error .noServer

def serverIn (config : Option Bytes) : Except KubeconfigError Target :=
  match config with
  | none => .error .missing
  | some bytes =>
    match (Bytes.text? bytes).bind Yaml.parse? with
    | none => .error .malformed
    | some value =>
      match kubeconfigShape.readJson value with
      | .ok (.record fields) => serverOf fields
      | _ => .error .malformed

end PodWebhook.Cluster

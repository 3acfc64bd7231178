import PodWebhook.Cluster.Status
import PodWebhook.Http.Target
import PodWebhook.Kubernetes.Namespace

/-!
Looking up namespaces. A reader without a connection fails and asks nobody; with one it asks for the
name it was given, once, and reads the reply.
-/

namespace PodWebhook

open Schema Http

structure Reply where
  status : Nat
  body : Bytes

inductive ClusterError where
  | notConnected
  | emptyName
  | target (error : TargetError)
  | notText (breach : Bytes.Breach)
  | refused (status : Cluster.Status)
  | notNamespace (reason : String)

namespace ClusterError

def breachText (breach : Bytes.Breach) : String :=
  match breach.length with
  | some n =>
    "invalid utf-8 sequence of " ++ Nat.repr n ++ " bytes from index " ++ Nat.repr breach.start
  | none => "incomplete utf-8 byte sequence from index " ++ Nat.repr breach.start

def message : ClusterError → String
  | notConnected => "not connected to a Kubernetes cluster"
  | emptyName =>
    "Failed to build request: failed to validate request: A non-empty name is required"
  | target error => "Failed to build request: failed to build request: " ++ error.message
  | notText breach => "UTF-8 Error: " ++ breachText breach
  | refused status =>
    "ApiError: " ++ status.message ++ ": " ++ status.reason ++ " (" ++ status.describe ++ ")"
  | notNamespace reason => "Error deserializing response: " ++ reason

end ClusterError

inductive ClusterReader where
  | offline
  | connected (serve : Target → Reply)

structure Lookup where
  asked : Option Target
  result : Except ClusterError Datum

namespace ClusterReader

def isConnected : ClusterReader → Bool
  | offline => false
  | connected _ => true

def namespaceTarget (name : String) : Except ClusterError Target :=
  if name.isEmpty then .error .emptyName
  else
    match Target.parse ("/api/v1/namespaces/" ++ name) with
    | .ok target => .ok target
    | .error error => .error (.target error)

def readNamespace (body : Bytes) : Except ClusterError Datum :=
  match Kubernetes.namespaceRecord.readDocument (Json.Document.ofBytes body) with
  | .ok datum => .ok datum
  | .error mismatch => .error (.notNamespace (mismatch.describeIn body))

def readStatus (code : Nat) (text : String) (body : Bytes) : Cluster.Status :=
  match Cluster.statusShape.readDocument (Json.Document.ofBytes body) with
  | .ok datum => Cluster.Status.ofDatum datum
  | .error _ => Cluster.Status.ofBody code text

def readReply (reply : Reply) : Except ClusterError Datum :=
  match Bytes.breach? reply.body, Bytes.text? reply.body with
  | none, some text =>
    if 400 ≤ reply.status ∧ reply.status < 600 then
      .error (.refused (readStatus reply.status text reply.body))
    else readNamespace reply.body
  | some breach, _ => .error (.notText breach)
  | none, none => .error (.notText ⟨0, none⟩)

def getNamespace (reader : ClusterReader) (name : String) : Lookup :=
  match reader with
  | offline => ⟨none, .error .notConnected⟩
  | connected serve =>
    match namespaceTarget name with
    | .error error => ⟨none, .error error⟩
    | .ok target => ⟨some target, readReply (serve target)⟩

end ClusterReader

end PodWebhook

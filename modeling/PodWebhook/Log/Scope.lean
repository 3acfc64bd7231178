import PodWebhook.Event

/-!
The scope in which reviews are answered. The events that happen in it carry its facts, and the log
names it beside them.
-/

namespace PodWebhook.Log

structure Scope where
  name : String
  target : String
  level : Level
  names : List String
  /-- Those of them that are known when it is entered. -/
  early : List String
  deriving Repr

def Scope.review : Scope where
  name := "pod_mutation"
  target := "mutating_webhook_server::api::handlers"
  level := .info
  names :=
    ["request_uid", "host", "name", "namespace", "operation", "kind_group", "kind_version", "kind",
      "allowed", "mutated", "response_code", "response_message"]
  early := ["host"]

def Scope.entryFacts (scope : Scope) (facts : NamedFields) : NamedFields :=
  facts.filter fun f => f.1 ∈ scope.early

end PodWebhook.Log

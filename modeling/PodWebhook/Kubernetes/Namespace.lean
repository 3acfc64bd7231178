import PodWebhook.Kubernetes.Meta

/-!
Namespaces.
-/

namespace PodWebhook.Kubernetes

open Schema

def namespaceSpec : Shape :=
  object "NamespaceSpec" [maybe "finalizers" (.list .text)]

def namespaceCondition : Shape :=
  object "NamespaceCondition"
    [maybe "lastTransitionTime" .instant, maybe "message" .text, maybe "reason" .text,
      always "status" .text, always "type" .text]

def namespaceStatus : Shape :=
  object "NamespaceStatus" [maybe "conditions" (.list namespaceCondition), maybe "phase" .text]

def namespaceRecord : Shape :=
  object "Namespace"
    [("apiVersion", .fixed "v1", .text), ("kind", .fixed "Namespace", .text),
      always "metadata" objectMeta, maybe "spec" namespaceSpec, maybe "status" namespaceStatus]

end PodWebhook.Kubernetes

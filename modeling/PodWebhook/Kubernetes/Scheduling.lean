import PodWebhook.Kubernetes.Meta

/-!
Where Pods may run.
-/

namespace PodWebhook.Kubernetes

open Schema

def nodeSelectorRequirement : Shape :=
  object "NodeSelectorRequirement"
    [always "key" .text, always "operator" .text, maybe "values" (.list .text)]

def nodeSelectorTerm : Shape :=
  object "NodeSelectorTerm"
    [maybe "matchExpressions" (.list nodeSelectorRequirement),
      maybe "matchFields" (.list nodeSelectorRequirement)]

def preferredSchedulingTerm : Shape :=
  object "PreferredSchedulingTerm"
    [always "preference" nodeSelectorTerm, always "weight" (.int .i32)]

def nodeSelector : Shape :=
  object "NodeSelector" [always "nodeSelectorTerms" (.list nodeSelectorTerm)]

def nodeAffinity : Shape :=
  object "NodeAffinity"
    [maybe "preferredDuringSchedulingIgnoredDuringExecution" (.list preferredSchedulingTerm),
      maybe "requiredDuringSchedulingIgnoredDuringExecution" nodeSelector]

def podAffinityTerm : Shape :=
  object "PodAffinityTerm"
    [maybe "labelSelector" labelSelector, maybe "matchLabelKeys" (.list .text),
      maybe "mismatchLabelKeys" (.list .text), maybe "namespaceSelector" labelSelector,
      maybe "namespaces" (.list .text), always "topologyKey" .text]

def weightedPodAffinityTerm : Shape :=
  object "WeightedPodAffinityTerm"
    [always "podAffinityTerm" podAffinityTerm, always "weight" (.int .i32)]

def podAffinity : Shape :=
  object "PodAffinity"
    [maybe "preferredDuringSchedulingIgnoredDuringExecution" (.list weightedPodAffinityTerm),
      maybe "requiredDuringSchedulingIgnoredDuringExecution" (.list podAffinityTerm)]

def podAntiAffinity : Shape :=
  object "PodAntiAffinity"
    [maybe "preferredDuringSchedulingIgnoredDuringExecution" (.list weightedPodAffinityTerm),
      maybe "requiredDuringSchedulingIgnoredDuringExecution" (.list podAffinityTerm)]

def affinity : Shape :=
  object "Affinity"
    [maybe "nodeAffinity" nodeAffinity, maybe "podAffinity" podAffinity,
      maybe "podAntiAffinity" podAntiAffinity]

def topologySpreadConstraint : Shape :=
  object "TopologySpreadConstraint"
    [maybe "labelSelector" labelSelector, maybe "matchLabelKeys" (.list .text),
      always "maxSkew" (.int .i32), maybe "minDomains" (.int .i32),
      maybe "nodeAffinityPolicy" .text, maybe "nodeTaintsPolicy" .text,
      always "topologyKey" .text, always "whenUnsatisfiable" .text]

def toleration : Shape :=
  object "Toleration"
    [maybe "effect" .text, maybe "key" .text, maybe "operator" .text,
      maybe "tolerationSeconds" (.int .i64), maybe "value" .text]

end PodWebhook.Kubernetes

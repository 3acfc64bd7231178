import PodWebhook.Kubernetes.Record

/-!
Metadata of objects, and the ways in which objects refer to others.
-/

namespace PodWebhook.Kubernetes

open Schema

def ownerReference : Shape :=
  object "OwnerReference"
    [always "apiVersion" .text, maybe "blockOwnerDeletion" .bool, maybe "controller" .bool,
      always "kind" .text, always "name" .text, always "uid" .text]

def managedFieldsEntry : Shape :=
  object "ManagedFieldsEntry"
    [maybe "apiVersion" .text, maybe "fieldsType" .text, maybe "fieldsV1" .any,
      maybe "manager" .text, maybe "operation" .text, maybe "subresource" .text,
      maybe "time" .instant]

def objectMeta : Shape :=
  object "ObjectMeta"
    [maybe "annotations" (.map .text), maybe "creationTimestamp" .instant,
      maybe "deletionGracePeriodSeconds" (.int .i64), maybe "deletionTimestamp" .instant,
      maybe "finalizers" (.list .text), maybe "generateName" .text,
      maybe "generation" (.int .i64), maybe "labels" (.map .text),
      maybe "managedFields" (.list managedFieldsEntry), maybe "name" .text,
      maybe "namespace" .text, maybe "ownerReferences" (.list ownerReference),
      maybe "resourceVersion" .text, maybe "selfLink" .text, maybe "uid" .text]

def labelSelectorRequirement : Shape :=
  object "LabelSelectorRequirement"
    [always "key" .text, always "operator" .text, maybe "values" (.list .text)]

def labelSelector : Shape :=
  object "LabelSelector"
    [maybe "matchExpressions" (.list labelSelectorRequirement), maybe "matchLabels" (.map .text)]

def localObjectReference : Shape :=
  object "LocalObjectReference" [always "name" .text]

def objectFieldSelector : Shape :=
  object "ObjectFieldSelector" [maybe "apiVersion" .text, always "fieldPath" .text]

def resourceFieldSelector : Shape :=
  object "ResourceFieldSelector"
    [maybe "containerName" .text, maybe "divisor" quantity, always "resource" .text]

def typedLocalObjectReference : Shape :=
  object "TypedLocalObjectReference"
    [maybe "apiGroup" .text, always "kind" .text, always "name" .text]

def typedObjectReference : Shape :=
  object "TypedObjectReference"
    [maybe "apiGroup" .text, always "kind" .text, always "name" .text, maybe "namespace" .text]

end PodWebhook.Kubernetes

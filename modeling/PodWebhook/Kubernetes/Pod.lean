import PodWebhook.Kubernetes.Container
import PodWebhook.Kubernetes.Meta
import PodWebhook.Kubernetes.Scheduling
import PodWebhook.Kubernetes.Volume

/-!
Pods as a whole.
-/

namespace PodWebhook.Kubernetes

open Schema

def podDNSConfigOption : Shape :=
  object "PodDNSConfigOption" [maybe "name" .text, maybe "value" .text]

def podDNSConfig : Shape :=
  object "PodDNSConfig"
    [maybe "nameservers" (.list .text), maybe "options" (.list podDNSConfigOption),
      maybe "searches" (.list .text)]

def hostAlias : Shape :=
  object "HostAlias" [maybe "hostnames" (.list .text), always "ip" .text]

def podOs : Shape :=
  object "PodOS" [always "name" .text]

def podReadinessGate : Shape :=
  object "PodReadinessGate" [always "conditionType" .text]

def podResourceClaim : Shape :=
  object "PodResourceClaim"
    [always "name" .text, maybe "resourceClaimName" .text,
      maybe "resourceClaimTemplateName" .text]

def podSchedulingGate : Shape :=
  object "PodSchedulingGate" [always "name" .text]

def sysctl : Shape :=
  object "Sysctl" [always "name" .text, always "value" .text]

def podSecurityContext : Shape :=
  object "PodSecurityContext"
    [maybe "appArmorProfile" appArmorProfile, maybe "fsGroup" (.int .i64),
      maybe "fsGroupChangePolicy" .text, maybe "runAsGroup" (.int .i64),
      maybe "runAsNonRoot" .bool, maybe "runAsUser" (.int .i64),
      maybe "seLinuxChangePolicy" .text, maybe "seLinuxOptions" seLinuxOptions,
      maybe "seccompProfile" seccompProfile, maybe "supplementalGroups" (.list (.int .i64)),
      maybe "supplementalGroupsPolicy" .text, maybe "sysctls" (.list sysctl),
      maybe "windowsOptions" windowsSecurityContextOptions]

def podSpec : Shape :=
  object "PodSpec"
    [maybe "activeDeadlineSeconds" (.int .i64), maybe "affinity" affinity,
      maybe "automountServiceAccountToken" .bool, always "containers" (.list container),
      maybe "dnsConfig" podDNSConfig, maybe "dnsPolicy" .text, maybe "enableServiceLinks" .bool,
      maybe "ephemeralContainers" (.list ephemeralContainer),
      maybe "hostAliases" (.list hostAlias), maybe "hostIPC" .bool, maybe "hostNetwork" .bool,
      maybe "hostPID" .bool, maybe "hostUsers" .bool, maybe "hostname" .text,
      maybe "imagePullSecrets" (.list localObjectReference),
      maybe "initContainers" (.list container), maybe "nodeName" .text,
      maybe "nodeSelector" (.map .text), maybe "os" podOs, maybe "overhead" (.map quantity),
      maybe "preemptionPolicy" .text, maybe "priority" (.int .i32),
      maybe "priorityClassName" .text, maybe "readinessGates" (.list podReadinessGate),
      maybe "resourceClaims" (.list podResourceClaim), maybe "resources" resourceRequirements,
      maybe "restartPolicy" .text, maybe "runtimeClassName" .text, maybe "schedulerName" .text,
      maybe "schedulingGates" (.list podSchedulingGate),
      maybe "securityContext" podSecurityContext, maybe "serviceAccount" .text,
      maybe "serviceAccountName" .text, maybe "setHostnameAsFQDN" .bool,
      maybe "shareProcessNamespace" .bool, maybe "subdomain" .text,
      maybe "terminationGracePeriodSeconds" (.int .i64), maybe "tolerations" (.list toleration),
      maybe "topologySpreadConstraints" (.list topologySpreadConstraint),
      maybe "volumes" (.list volume)]

def podCondition : Shape :=
  object "PodCondition"
    [maybe "lastProbeTime" .instant, maybe "lastTransitionTime" .instant, maybe "message" .text,
      maybe "observedGeneration" (.int .i64), maybe "reason" .text, always "status" .text,
      always "type" .text]

def resourceHealth : Shape :=
  object "ResourceHealth" [maybe "health" .text, always "resourceID" .text]

def resourceStatus : Shape :=
  object "ResourceStatus" [always "name" .text, maybe "resources" (.list resourceHealth)]

def containerStateRunning : Shape :=
  object "ContainerStateRunning" [maybe "startedAt" .instant]

def containerStateTerminated : Shape :=
  object "ContainerStateTerminated"
    [maybe "containerID" .text, always "exitCode" (.int .i32), maybe "finishedAt" .instant,
      maybe "message" .text, maybe "reason" .text, maybe "signal" (.int .i32),
      maybe "startedAt" .instant]

def containerStateWaiting : Shape :=
  object "ContainerStateWaiting" [maybe "message" .text, maybe "reason" .text]

def containerState : Shape :=
  object "ContainerState"
    [maybe "running" containerStateRunning, maybe "terminated" containerStateTerminated,
      maybe "waiting" containerStateWaiting]

def linuxContainerUser : Shape :=
  object "LinuxContainerUser"
    [always "gid" (.int .i64), maybe "supplementalGroups" (.list (.int .i64)),
      always "uid" (.int .i64)]

def containerUser : Shape :=
  object "ContainerUser" [maybe "linux" linuxContainerUser]

def volumeMountStatus : Shape :=
  object "VolumeMountStatus"
    [always "mountPath" .text, always "name" .text, maybe "readOnly" .bool,
      maybe "recursiveReadOnly" .text]

def containerStatus : Shape :=
  object "ContainerStatus"
    [maybe "allocatedResources" (.map quantity),
      maybe "allocatedResourcesStatus" (.list resourceStatus), maybe "containerID" .text,
      always "image" .text, always "imageID" .text, maybe "lastState" containerState,
      always "name" .text, always "ready" .bool, maybe "resources" resourceRequirements,
      always "restartCount" (.int .i32), maybe "started" .bool, maybe "state" containerState,
      maybe "stopSignal" .text, maybe "user" containerUser,
      maybe "volumeMounts" (.list volumeMountStatus)]

def hostIp : Shape :=
  object "HostIP" [always "ip" .text]

def podIp : Shape :=
  object "PodIP" [always "ip" .text]

def podResourceClaimStatus : Shape :=
  object "PodResourceClaimStatus" [always "name" .text, maybe "resourceClaimName" .text]

def podStatus : Shape :=
  object "PodStatus"
    [maybe "conditions" (.list podCondition), maybe "containerStatuses" (.list containerStatus),
      maybe "ephemeralContainerStatuses" (.list containerStatus), maybe "hostIP" .text,
      maybe "hostIPs" (.list hostIp), maybe "initContainerStatuses" (.list containerStatus),
      maybe "message" .text, maybe "nominatedNodeName" .text,
      maybe "observedGeneration" (.int .i64), maybe "phase" .text, maybe "podIP" .text,
      maybe "podIPs" (.list podIp), maybe "qosClass" .text, maybe "reason" .text,
      maybe "resize" .text, maybe "resourceClaimStatuses" (.list podResourceClaimStatus),
      maybe "startTime" .instant]

def pod : Shape :=
  object "Pod"
    [("apiVersion", .fixed "v1", .text), ("kind", .fixed "Pod", .text),
      always "metadata" objectMeta, maybe "spec" podSpec, maybe "status" podStatus]

end PodWebhook.Kubernetes

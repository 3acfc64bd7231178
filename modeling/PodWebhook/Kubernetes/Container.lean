import PodWebhook.Kubernetes.Meta

/-!
Containers: what they run, how they are probed, what they may do.
-/

namespace PodWebhook.Kubernetes

open Schema

def configMapKeySelector : Shape :=
  object "ConfigMapKeySelector" [always "key" .text, always "name" .text, maybe "optional" .bool]

def secretKeySelector : Shape :=
  object "SecretKeySelector" [always "key" .text, always "name" .text, maybe "optional" .bool]

def envVarSource : Shape :=
  object "EnvVarSource"
    [maybe "configMapKeyRef" configMapKeySelector, maybe "fieldRef" objectFieldSelector,
      maybe "resourceFieldRef" resourceFieldSelector, maybe "secretKeyRef" secretKeySelector]

def envVar : Shape :=
  object "EnvVar" [always "name" .text, maybe "value" .text, maybe "valueFrom" envVarSource]

def configMapEnvSource : Shape :=
  object "ConfigMapEnvSource" [always "name" .text, maybe "optional" .bool]

def secretEnvSource : Shape :=
  object "SecretEnvSource" [always "name" .text, maybe "optional" .bool]

def envFromSource : Shape :=
  object "EnvFromSource"
    [maybe "configMapRef" configMapEnvSource, maybe "prefix" .text,
      maybe "secretRef" secretEnvSource]

def execAction : Shape :=
  object "ExecAction" [maybe "command" (.list .text)]

def httpHeader : Shape :=
  object "HTTPHeader" [always "name" .text, always "value" .text]

def httpGetAction : Shape :=
  object "HTTPGetAction"
    [maybe "host" .text, maybe "httpHeaders" (.list httpHeader), maybe "path" .text,
      always "port" .intOrText, maybe "scheme" .text]

def sleepAction : Shape :=
  object "SleepAction" [always "seconds" (.int .i64)]

def tcpSocketAction : Shape :=
  object "TCPSocketAction" [maybe "host" .text, always "port" .intOrText]

def lifecycleHandler : Shape :=
  object "LifecycleHandler"
    [maybe "exec" execAction, maybe "httpGet" httpGetAction, maybe "sleep" sleepAction,
      maybe "tcpSocket" tcpSocketAction]

def lifecycle : Shape :=
  object "Lifecycle"
    [maybe "postStart" lifecycleHandler, maybe "preStop" lifecycleHandler,
      maybe "stopSignal" .text]

def grpcAction : Shape :=
  object "GRPCAction" [always "port" (.int .i32), maybe "service" .text]

def probe : Shape :=
  object "Probe"
    [maybe "exec" execAction, maybe "failureThreshold" (.int .i32), maybe "grpc" grpcAction,
      maybe "httpGet" httpGetAction, maybe "initialDelaySeconds" (.int .i32),
      maybe "periodSeconds" (.int .i32), maybe "successThreshold" (.int .i32),
      maybe "tcpSocket" tcpSocketAction, maybe "terminationGracePeriodSeconds" (.int .i64),
      maybe "timeoutSeconds" (.int .i32)]

def containerPort : Shape :=
  object "ContainerPort"
    [always "containerPort" (.int .i32), maybe "hostIP" .text, maybe "hostPort" (.int .i32),
      maybe "name" .text, maybe "protocol" .text]

def containerResizePolicy : Shape :=
  object "ContainerResizePolicy" [always "resourceName" .text, always "restartPolicy" .text]

def resourceClaim : Shape :=
  object "ResourceClaim" [always "name" .text, maybe "request" .text]

def resourceRequirements : Shape :=
  object "ResourceRequirements"
    [maybe "claims" (.list resourceClaim), maybe "limits" (.map quantity),
      maybe "requests" (.map quantity)]

def appArmorProfile : Shape :=
  object "AppArmorProfile" [maybe "localhostProfile" .text, always "type" .text]

def capabilities : Shape :=
  object "Capabilities" [maybe "add" (.list .text), maybe "drop" (.list .text)]

def seLinuxOptions : Shape :=
  object "SELinuxOptions"
    [maybe "level" .text, maybe "role" .text, maybe "type" .text, maybe "user" .text]

def seccompProfile : Shape :=
  object "SeccompProfile" [maybe "localhostProfile" .text, always "type" .text]

def windowsSecurityContextOptions : Shape :=
  object "WindowsSecurityContextOptions"
    [maybe "gmsaCredentialSpec" .text, maybe "gmsaCredentialSpecName" .text,
      maybe "hostProcess" .bool, maybe "runAsUserName" .text]

def securityContext : Shape :=
  object "SecurityContext"
    [maybe "allowPrivilegeEscalation" .bool, maybe "appArmorProfile" appArmorProfile,
      maybe "capabilities" capabilities, maybe "privileged" .bool, maybe "procMount" .text,
      maybe "readOnlyRootFilesystem" .bool, maybe "runAsGroup" (.int .i64),
      maybe "runAsNonRoot" .bool, maybe "runAsUser" (.int .i64),
      maybe "seLinuxOptions" seLinuxOptions, maybe "seccompProfile" seccompProfile,
      maybe "windowsOptions" windowsSecurityContextOptions]

def volumeDevice : Shape :=
  object "VolumeDevice" [always "devicePath" .text, always "name" .text]

def volumeMount : Shape :=
  object "VolumeMount"
    [always "mountPath" .text, maybe "mountPropagation" .text, always "name" .text,
      maybe "readOnly" .bool, maybe "recursiveReadOnly" .text, maybe "subPath" .text,
      maybe "subPathExpr" .text]

def container : Shape :=
  object "Container"
    [maybe "args" (.list .text), maybe "command" (.list .text), maybe "env" (.list envVar),
      maybe "envFrom" (.list envFromSource), maybe "image" .text, maybe "imagePullPolicy" .text,
      maybe "lifecycle" lifecycle, maybe "livenessProbe" probe, always "name" .text,
      maybe "ports" (.list containerPort), maybe "readinessProbe" probe,
      maybe "resizePolicy" (.list containerResizePolicy), maybe "resources" resourceRequirements,
      maybe "restartPolicy" .text, maybe "securityContext" securityContext,
      maybe "startupProbe" probe, maybe "stdin" .bool, maybe "stdinOnce" .bool,
      maybe "terminationMessagePath" .text, maybe "terminationMessagePolicy" .text,
      maybe "tty" .bool, maybe "volumeDevices" (.list volumeDevice),
      maybe "volumeMounts" (.list volumeMount), maybe "workingDir" .text]

def ephemeralContainer : Shape :=
  object "EphemeralContainer"
    [maybe "args" (.list .text), maybe "command" (.list .text), maybe "env" (.list envVar),
      maybe "envFrom" (.list envFromSource), maybe "image" .text, maybe "imagePullPolicy" .text,
      maybe "lifecycle" lifecycle, maybe "livenessProbe" probe, always "name" .text,
      maybe "ports" (.list containerPort), maybe "readinessProbe" probe,
      maybe "resizePolicy" (.list containerResizePolicy), maybe "resources" resourceRequirements,
      maybe "restartPolicy" .text, maybe "securityContext" securityContext,
      maybe "startupProbe" probe, maybe "stdin" .bool, maybe "stdinOnce" .bool,
      maybe "targetContainerName" .text, maybe "terminationMessagePath" .text,
      maybe "terminationMessagePolicy" .text, maybe "tty" .bool,
      maybe "volumeDevices" (.list volumeDevice), maybe "volumeMounts" (.list volumeMount),
      maybe "workingDir" .text]

end PodWebhook.Kubernetes

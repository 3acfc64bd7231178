import PodWebhook.Kubernetes.Meta

/-!
Volumes and their many sources.
-/

namespace PodWebhook.Kubernetes

open Schema

def awsElasticBlockStoreVolumeSource : Shape :=
  object "AWSElasticBlockStoreVolumeSource"
    [maybe "fsType" .text, maybe "partition" (.int .i32), maybe "readOnly" .bool,
      always "volumeID" .text]

def azureDiskVolumeSource : Shape :=
  object "AzureDiskVolumeSource"
    [maybe "cachingMode" .text, always "diskName" .text, always "diskURI" .text,
      maybe "fsType" .text, maybe "kind" .text, maybe "readOnly" .bool]

def azureFileVolumeSource : Shape :=
  object "AzureFileVolumeSource"
    [maybe "readOnly" .bool, always "secretName" .text, always "shareName" .text]

def cephFSVolumeSource : Shape :=
  object "CephFSVolumeSource"
    [always "monitors" (.list .text), maybe "path" .text, maybe "readOnly" .bool,
      maybe "secretFile" .text, maybe "secretRef" localObjectReference, maybe "user" .text]

def cinderVolumeSource : Shape :=
  object "CinderVolumeSource"
    [maybe "fsType" .text, maybe "readOnly" .bool, maybe "secretRef" localObjectReference,
      always "volumeID" .text]

def keyToPath : Shape :=
  object "KeyToPath" [always "key" .text, maybe "mode" (.int .i32), always "path" .text]

def configMapVolumeSource : Shape :=
  object "ConfigMapVolumeSource"
    [maybe "defaultMode" (.int .i32), maybe "items" (.list keyToPath), always "name" .text,
      maybe "optional" .bool]

def csiVolumeSource : Shape :=
  object "CSIVolumeSource"
    [always "driver" .text, maybe "fsType" .text,
      maybe "nodePublishSecretRef" localObjectReference, maybe "readOnly" .bool,
      maybe "volumeAttributes" (.map .text)]

def downwardAPIVolumeFile : Shape :=
  object "DownwardAPIVolumeFile"
    [maybe "fieldRef" objectFieldSelector, maybe "mode" (.int .i32), always "path" .text,
      maybe "resourceFieldRef" resourceFieldSelector]

def downwardAPIVolumeSource : Shape :=
  object "DownwardAPIVolumeSource"
    [maybe "defaultMode" (.int .i32), maybe "items" (.list downwardAPIVolumeFile)]

def emptyDirVolumeSource : Shape :=
  object "EmptyDirVolumeSource" [maybe "medium" .text, maybe "sizeLimit" quantity]

def volumeResourceRequirements : Shape :=
  object "VolumeResourceRequirements"
    [maybe "limits" (.map quantity), maybe "requests" (.map quantity)]

def persistentVolumeClaimSpec : Shape :=
  object "PersistentVolumeClaimSpec"
    [maybe "accessModes" (.list .text), maybe "dataSource" typedLocalObjectReference,
      maybe "dataSourceRef" typedObjectReference, maybe "resources" volumeResourceRequirements,
      maybe "selector" labelSelector, maybe "storageClassName" .text,
      maybe "volumeAttributesClassName" .text, maybe "volumeMode" .text, maybe "volumeName" .text]

def persistentVolumeClaimTemplate : Shape :=
  object "PersistentVolumeClaimTemplate"
    [maybe "metadata" objectMeta, always "spec" persistentVolumeClaimSpec]

def ephemeralVolumeSource : Shape :=
  object "EphemeralVolumeSource" [maybe "volumeClaimTemplate" persistentVolumeClaimTemplate]

def fcVolumeSource : Shape :=
  object "FCVolumeSource"
    [maybe "fsType" .text, maybe "lun" (.int .i32), maybe "readOnly" .bool,
      maybe "targetWWNs" (.list .text), maybe "wwids" (.list .text)]

def flexVolumeSource : Shape :=
  object "FlexVolumeSource"
    [always "driver" .text, maybe "fsType" .text, maybe "options" (.map .text),
      maybe "readOnly" .bool, maybe "secretRef" localObjectReference]

def flockerVolumeSource : Shape :=
  object "FlockerVolumeSource" [maybe "datasetName" .text, maybe "datasetUUID" .text]

def gcePersistentDiskVolumeSource : Shape :=
  object "GCEPersistentDiskVolumeSource"
    [maybe "fsType" .text, maybe "partition" (.int .i32), always "pdName" .text,
      maybe "readOnly" .bool]

def gitRepoVolumeSource : Shape :=
  object "GitRepoVolumeSource"
    [maybe "directory" .text, always "repository" .text, maybe "revision" .text]

def glusterfsVolumeSource : Shape :=
  object "GlusterfsVolumeSource"
    [always "endpoints" .text, always "path" .text, maybe "readOnly" .bool]

def hostPathVolumeSource : Shape :=
  object "HostPathVolumeSource" [always "path" .text, maybe "type" .text]

def imageVolumeSource : Shape :=
  object "ImageVolumeSource" [maybe "pullPolicy" .text, maybe "reference" .text]

def iscsiVolumeSource : Shape :=
  object "ISCSIVolumeSource"
    [maybe "chapAuthDiscovery" .bool, maybe "chapAuthSession" .bool, maybe "fsType" .text,
      maybe "initiatorName" .text, always "iqn" .text, maybe "iscsiInterface" .text,
      always "lun" (.int .i32), maybe "portals" (.list .text), maybe "readOnly" .bool,
      maybe "secretRef" localObjectReference, always "targetPortal" .text]

def nfsVolumeSource : Shape :=
  object "NFSVolumeSource" [always "path" .text, maybe "readOnly" .bool, always "server" .text]

def persistentVolumeClaimVolumeSource : Shape :=
  object "PersistentVolumeClaimVolumeSource" [always "claimName" .text, maybe "readOnly" .bool]

def photonPersistentDiskVolumeSource : Shape :=
  object "PhotonPersistentDiskVolumeSource" [maybe "fsType" .text, always "pdID" .text]

def portworxVolumeSource : Shape :=
  object "PortworxVolumeSource"
    [maybe "fsType" .text, maybe "readOnly" .bool, always "volumeID" .text]

def clusterTrustBundleProjection : Shape :=
  object "ClusterTrustBundleProjection"
    [maybe "labelSelector" labelSelector, maybe "name" .text, maybe "optional" .bool,
      always "path" .text, maybe "signerName" .text]

def configMapProjection : Shape :=
  object "ConfigMapProjection"
    [maybe "items" (.list keyToPath), always "name" .text, maybe "optional" .bool]

def downwardAPIProjection : Shape :=
  object "DownwardAPIProjection" [maybe "items" (.list downwardAPIVolumeFile)]

def secretProjection : Shape :=
  object "SecretProjection"
    [maybe "items" (.list keyToPath), always "name" .text, maybe "optional" .bool]

def serviceAccountTokenProjection : Shape :=
  object "ServiceAccountTokenProjection"
    [maybe "audience" .text, maybe "expirationSeconds" (.int .i64), always "path" .text]

def volumeProjection : Shape :=
  object "VolumeProjection"
    [maybe "clusterTrustBundle" clusterTrustBundleProjection,
      maybe "configMap" configMapProjection, maybe "downwardAPI" downwardAPIProjection,
      maybe "secret" secretProjection, maybe "serviceAccountToken" serviceAccountTokenProjection]

def projectedVolumeSource : Shape :=
  object "ProjectedVolumeSource"
    [maybe "defaultMode" (.int .i32), maybe "sources" (.list volumeProjection)]

def quobyteVolumeSource : Shape :=
  object "QuobyteVolumeSource"
    [maybe "group" .text, maybe "readOnly" .bool, always "registry" .text, maybe "tenant" .text,
      maybe "user" .text, always "volume" .text]

def rbdVolumeSource : Shape :=
  object "RBDVolumeSource"
    [maybe "fsType" .text, always "image" .text, maybe "keyring" .text,
      always "monitors" (.list .text), maybe "pool" .text, maybe "readOnly" .bool,
      maybe "secretRef" localObjectReference, maybe "user" .text]

def scaleIOVolumeSource : Shape :=
  object "ScaleIOVolumeSource"
    [maybe "fsType" .text, always "gateway" .text, maybe "protectionDomain" .text,
      maybe "readOnly" .bool, always "secretRef" localObjectReference, maybe "sslEnabled" .bool,
      maybe "storageMode" .text, maybe "storagePool" .text, always "system" .text,
      maybe "volumeName" .text]

def secretVolumeSource : Shape :=
  object "SecretVolumeSource"
    [maybe "defaultMode" (.int .i32), maybe "items" (.list keyToPath), maybe "optional" .bool,
      maybe "secretName" .text]

def storageOSVolumeSource : Shape :=
  object "StorageOSVolumeSource"
    [maybe "fsType" .text, maybe "readOnly" .bool, maybe "secretRef" localObjectReference,
      maybe "volumeName" .text, maybe "volumeNamespace" .text]

def vsphereVirtualDiskVolumeSource : Shape :=
  object "VsphereVirtualDiskVolumeSource"
    [maybe "fsType" .text, maybe "storagePolicyID" .text, maybe "storagePolicyName" .text,
      always "volumePath" .text]

def volume : Shape :=
  object "Volume"
    [maybe "awsElasticBlockStore" awsElasticBlockStoreVolumeSource,
      maybe "azureDisk" azureDiskVolumeSource, maybe "azureFile" azureFileVolumeSource,
      maybe "cephfs" cephFSVolumeSource, maybe "cinder" cinderVolumeSource,
      maybe "configMap" configMapVolumeSource, maybe "csi" csiVolumeSource,
      maybe "downwardAPI" downwardAPIVolumeSource, maybe "emptyDir" emptyDirVolumeSource,
      maybe "ephemeral" ephemeralVolumeSource, maybe "fc" fcVolumeSource,
      maybe "flexVolume" flexVolumeSource, maybe "flocker" flockerVolumeSource,
      maybe "gcePersistentDisk" gcePersistentDiskVolumeSource,
      maybe "gitRepo" gitRepoVolumeSource, maybe "glusterfs" glusterfsVolumeSource,
      maybe "hostPath" hostPathVolumeSource, maybe "image" imageVolumeSource,
      maybe "iscsi" iscsiVolumeSource, always "name" .text, maybe "nfs" nfsVolumeSource,
      maybe "persistentVolumeClaim" persistentVolumeClaimVolumeSource,
      maybe "photonPersistentDisk" photonPersistentDiskVolumeSource,
      maybe "portworxVolume" portworxVolumeSource, maybe "projected" projectedVolumeSource,
      maybe "quobyte" quobyteVolumeSource, maybe "rbd" rbdVolumeSource,
      maybe "scaleIO" scaleIOVolumeSource, maybe "secret" secretVolumeSource,
      maybe "storageos" storageOSVolumeSource,
      maybe "vsphereVolume" vsphereVirtualDiskVolumeSource]

end PodWebhook.Kubernetes

import ValkeyOperator.Valkey.State

/-! The API objects the controllers share (`pkg/apis/valkey/v1alpha1`) and the
names and labels of a cluster's nodes (`pkg/naming`).

Kubernetes values that the operator copies without looking inside (resource
lists, affinities, tolerations, …) are carried in serialized form. -/

namespace ValkeyOperator.Api
open Text Valkey

/-- A serialized API value that is only copied. -/
abbrev Raw := Str

/-- Labels and annotations. -/
abbrev StrMap := GoMap Str Str

/-- A Go map read of an absent key gives the empty string. -/
def StrMap.get (m : StrMap) (key : Str) : Str := (m.lookup key).getD []

structure EnvVar where
  name : Str
  value : Str
  valueFrom : Raw := []
deriving DecidableEq

structure VolumeMount where
  name : Str
  mountPath : Str
  readOnly : Bool := false
deriving DecidableEq

structure Container where
  name : Str
  image : Str := []
  command : List Str := []
  args : List Str := []
  env : List EnvVar := []
  envFrom : List Str := []
  ports : List (Str × Int) := []
  volumeMounts : List VolumeMount := []
  resources : Raw := []
  securityContext : Raw := []
  /-- command lines or URLs of the startup, liveness and readiness probes -/
  probes : List (List Str) := []
deriving DecidableEq

/-- A resource quantity: as it is written, and the amount it compares by. -/
structure Quantity where
  text : Str
  amount : Nat
deriving DecidableEq

structure PersistenceSpec where
  size : Quantity
  storageClassName : Option Str := none
  reclaimPolicy : Str := []
deriving DecidableEq

structure ExporterSpec where
  enabled : Bool := false
  image : Str := []
  resources : Raw := []
  port : Option Int := none
  tls : Option Bool := none
deriving DecidableEq

structure TLSConfig where
  secretName : Str := []
  certManager : Raw := []
  authClients : Str := []
  ciphers : Str := []
  cipherSuites : Str := []
  dhParamsSecret : Option Str := none
deriving DecidableEq

structure PodSecurityContext where
  fsGroup : Option Int := none
  rest : Raw := []
deriving DecidableEq

inductive WorkloadType where
  | statefulSet
  | deployment
deriving DecidableEq

inductive BackupStorageType where
  | s3
  | gcs
  | azure
  | filesystem
deriving DecidableEq

/-- Coordinates of one backend; the fields a backend lacks stay empty. -/
structure StorageCoordinates where
  bucket : Str
  keyPrefix : Str := []
  region : Str := []
  endpointURL : Str := []
  credentialsSecret : Str := []
deriving DecidableEq

structure BackupStorageSpec where
  type : BackupStorageType
  s3 : Option StorageCoordinates := none
  gcs : Option StorageCoordinates := none
  azure : Option StorageCoordinates := none
deriving DecidableEq

/-- Where a restored shard's dump is downloaded from. -/
structure RestoreSource where
  storage : Str
  backupName : Str
  shardIndex : Int
  clusterName : Str := []
  storageSpec : Option BackupStorageSpec := none
  credentialsSecret : Str := []
deriving DecidableEq

structure ValkeyNodeSpec where
  image : Str := []
  imagePullSecrets : Raw := []
  workloadType : WorkloadType := .statefulSet
  persistence : Option PersistenceSpec := none
  resources : Raw := []
  nodeSelector : Raw := []
  affinity : Raw := []
  tolerations : Raw := []
  topologySpreadConstraints : Raw := []
  exporter : ExporterSpec := {}
  containers : List Container := []
  tls : Option TLSConfig := none
  config : StrMap := ∅
  env : StrMap := ∅
  extraEnvVars : List EnvVar := []
  serviceAccountName : Str := []
  automountServiceAccountToken : Option Bool := none
  podSecurityContext : Option PodSecurityContext := none
  containerSecurityContext : Raw := []
  serverConfigMapName : Str := []
  serverConfigHash : Str := []
  aclSecretName : Str := []
  announceHost : Str := []
  announcePort : Option Int := none
  restoreFrom : Option RestoreSource := none
deriving DecidableEq

inductive NodeRole where
  | primary
  | replica
deriving DecidableEq

inductive NodeConditionType where
  | ready
  | pvcReady
  | pvcSizeReady
  | liveConfigApplied
deriving DecidableEq

structure NodeCondition where
  type : NodeConditionType
  status : Bool
  reason : Str
  message : Str
  observedGeneration : Int
deriving DecidableEq

structure ValkeyNodeStatus where
  observedGeneration : Int := 0
  ready : Bool := false
  podName : Str := []
  podIP : Str := []
  /-- the live role, while it is not known none -/
  role : Option NodeRole := none
  conditions : List NodeCondition := []
deriving DecidableEq

structure ValkeyNode where
  name : Str
  labels : StrMap := ∅
  annotations : StrMap := ∅
  generation : Int := 1
  spec : ValkeyNodeSpec := {}
  status : ValkeyNodeStatus := {}
deriving DecidableEq

inductive ClusterMode where
  | cluster
  | replication
deriving DecidableEq

inductive ServiceType where
  | clusterIP
  | nodePort
  | loadBalancer
deriving DecidableEq

structure ExposeSpec where
  type : ServiceType := .clusterIP
  perPod : Bool := false
deriving DecidableEq

structure ClusterSpec where
  image : Str := []
  imagePullSecrets : Raw := []
  mode : ClusterMode := .cluster
  shards : Int32 := 0
  replicas : Int32 := 0
  workloadType : WorkloadType := .statefulSet
  resources : Raw := []
  affinity : Raw := []
  nodeSelector : Raw := []
  tolerations : Raw := []
  topologySpreadConstraints : Raw := []
  persistence : Option PersistenceSpec := none
  config : StrMap := ∅
  containers : List Container := []
  tls : Option TLSConfig := none
  expose : Option ExposeSpec := none
  env : StrMap := ∅
  extraEnvVars : List EnvVar := []
  serviceAccountName : Str := []
  automountServiceAccountToken : Option Bool := none
  podSecurityContext : Option PodSecurityContext := none
  containerSecurityContext : Raw := []
  exporter : ExporterSpec := {}
  /-- `backup.storages` -/
  storages : GoMap Str BackupStorageSpec := ∅
  /-- as the backup Job is told; the pipeline of the cluster keeps it beside the spec -/
  crVersion : Str := []
deriving DecidableEq

inductive ClusterHealth where
  | initializing
  | reconciling
  | ready
  | degraded
  | failed
deriving DecidableEq

/-- The conditions that other controllers read. -/
inductive ClusterConditionType where
  | ready
  | slotsAssigned
  | clusterFormed
deriving DecidableEq

structure ClusterStatus where
  state : ClusterHealth := .initializing
  reason : Str := []
  conditions : List (ClusterConditionType × Bool) := []
deriving DecidableEq

structure PerconaValkeyCluster where
  name : Str
  ns : Str := []
  annotations : StrMap := ∅
  spec : ClusterSpec := {}
  status : ClusterStatus := {}
deriving DecidableEq

/-! ## Names and labels -/

def labelCluster : Str := "valkey.percona.com/cluster"
def labelShardIndex : Str := "valkey.percona.com/shard-index"
def labelNodeIndex : Str := "valkey.percona.com/node-index"
def annServerConfigHash : Str := "valkey.percona.com/server-config-hash"
def annTLSHash : Str := "valkey.percona.com/tls-hash"

def nodeName (cluster : Str) (shard node : Int) : Str :=
  cluster ++ '-' :: itoa shard ++ '-' :: itoa node

def resourceName (name : Str) : Str := "valkey-" ++ name

def nodePVCName (node : Str) : Str := resourceName node ++ "-data"

def aclSecretName (cluster : Str) : Str := "internal-" ++ cluster ++ "-acl"

def tlsSecretNameOf (cluster : Str) : Str := "internal-" ++ cluster ++ "-tls"

def clientPort : Int := 6379

/-- The dial address of a pod. -/
def clientAddr (podIP : Str) : Str := podIP ++ ':' :: itoa clientPort

def labelAppInstance : Str := "app.kubernetes.io/instance"

def componentValkey : Str := "valkey"

/-- The labels of every object of a cluster's component. -/
def componentLabels (cluster component : Str) : StrMap :=
  [⟨"app.kubernetes.io/name", "percona-valkey"⟩,
    ⟨labelAppInstance, cluster⟩,
    ⟨"app.kubernetes.io/managed-by", "percona-valkey-operator"⟩,
    ⟨labelCluster, cluster⟩,
    ⟨"app.kubernetes.io/component", component⟩,
    ⟨"valkey.percona.com/component", component⟩].toAList

/-- The cluster a node belongs to, itself when it is on its own. -/
def nodeCluster (name : Str) (labels : StrMap) : Str :=
  if labels.get labelCluster ≠ [] then labels.get labelCluster else name

/-- Copy the label `key` unless it is absent or empty. -/
def copyLabel (from_ : StrMap) (l : StrMap) (key : Str) : StrMap :=
  if from_.get key ≠ [] then l.insert key (from_.get key) else l

/-- The labels of what a node owns, given its own. -/
def ownedLabels (name : Str) (labels : StrMap) : StrMap :=
  [labelCluster, labelShardIndex, labelNodeIndex].foldl (copyLabel labels)
    ((componentLabels (nodeCluster name labels) componentValkey).insert labelAppInstance name)

def clusterTopologyLabels (cluster : Str) (shard node : Int) : StrMap :=
  [⟨labelCluster, cluster⟩, ⟨labelShardIndex, itoa shard⟩, ⟨labelNodeIndex, itoa node⟩].toAList

/-- The labels of the node at a position. -/
def nodeLabels (cluster : Str) (shard node : Int) : StrMap :=
  ownedLabels (nodeName cluster shard node) (clusterTopologyLabels cluster shard node)

/-- The shard index a node's labels give, if they do. -/
def ValkeyNode.shardLabel (n : ValkeyNode) : Option Int :=
  (atoi (n.labels.get labelShardIndex)).toOption

def ValkeyNode.nodeLabel (n : ValkeyNode) : Option Int :=
  (atoi (n.labels.get labelNodeIndex)).toOption

/-- `shardIndexOf`: zero when the label does not parse. -/
def shardIndexOf (n : ValkeyNode) : Int := n.shardLabel.getD 0

/-- `nodeIndexOf`: zero when the label does not parse. -/
def nodeIndexOf (n : ValkeyNode) : Int := n.nodeLabel.getD 0

end ValkeyOperator.Api

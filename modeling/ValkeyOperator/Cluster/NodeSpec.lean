import ValkeyOperator.Cluster.Api

/-! What a cluster prescribes for each of its nodes (`buildValkeyNodeSpec` of
`perconavalkeycluster/nodes.go`, with `restore_target.go`, `tls.go` and the
announce defaults of `expose_announce.go`). -/

namespace ValkeyOperator.Cluster
open Text Valkey Api

structure NodeKey where
  shard : Int
  node : Int
deriving DecidableEq

def keyName (cluster : Str) (key : NodeKey) : Str := nodeName cluster key.shard key.node

/-! ## External announce address -/

def exposeExternal : Option ExposeSpec → Bool
  | none => false
  | some e => e.type = .nodePort ∨ e.type = .loadBalancer

def announceWanted (cluster : PerconaValkeyCluster) : Bool :=
  match cluster.spec.expose with
  | none => false
  | some e =>
    if e.perPod then cluster.spec.mode = .cluster ∧ exposeExternal (some e) else false

def perPodServiceName (node : Str) : Str := "valkey-" ++ node ++ "-ext"

/-- The in-mesh default: the per-pod Service's name. -/
def announceForNode (cluster : PerconaValkeyCluster) (key : NodeKey) : Str × Option Int :=
  if announceWanted cluster then
    (perPodServiceName (keyName cluster.name key) ++ '.' :: cluster.ns ++ ".svc", some clientPort)
  else ([], none)

/-! ## TLS -/

def tlsSecretName (cluster : PerconaValkeyCluster) : Str :=
  match cluster.spec.tls with
  | some t => if t.secretName ≠ [] then t.secretName else tlsSecretNameOf cluster.name
  | none => tlsSecretNameOf cluster.name

def nodeTLSConfig (cluster : PerconaValkeyCluster) : Option TLSConfig :=
  cluster.spec.tls.map fun t =>
    { secretName := tlsSecretName cluster
      authClients := t.authClients
      ciphers := t.ciphers
      cipherSuites := t.cipherSuites
      dhParamsSecret := t.dhParamsSecret }

/-- Record the hash as an annotation; an empty hash changes nothing. -/
def stampTLSHash (annotations : StrMap) (hash : Str) : StrMap :=
  if hash = [] then annotations else annotations.insert annTLSHash hash

/-! ## Restore markers -/

def annRestoreMarker : Str := "valkey.percona.com/restored-from"
def annRestoreStorage : Str := "valkey.percona.com/restore-storage"
def annSourceCluster : Str := "valkey.percona.com/restore-source-cluster"
def annSourceBackup : Str := "valkey.percona.com/restore-source-backup"

def isRestoreTarget (cluster : PerconaValkeyCluster) : Bool :=
  (cluster.annotations.lookup annRestoreMarker).isSome

/-- The storage named by the restore, else the only one configured. -/
def storageForRestore (cluster : PerconaValkeyCluster) : Str :=
  if cluster.annotations.get annRestoreStorage ≠ [] then cluster.annotations.get annRestoreStorage
  else
    match cluster.spec.storages.keys with
    | [name] => name
    | _ => []

/-- What follows the last slash of the marker, unless the source was inline. -/
def backupNameFromMarker (marker : Str) : Str :=
  if marker.contains '/' then
    let name := marker.rtakeWhile (· != '/')
    if name = "backupSource" then [] else name
  else []

def credentialsSecretForStorage (spec : BackupStorageSpec) : Str :=
  let secret := fun (c : Option StorageCoordinates) => (c.map (·.credentialsSecret)).getD []
  match spec.type with
  | .s3 => secret spec.s3
  | .gcs => secret spec.gcs
  | .azure => secret spec.azure
  | .filesystem => []

/-- The seed of a node: only primaries of a restore target have one. -/
def restoreSourceForNode (cluster : PerconaValkeyCluster) (key : NodeKey) :
    Option RestoreSource :=
  if !isRestoreTarget cluster then none
  else if key.node ≠ 0 then none
  else
    let storageName := storageForRestore cluster
    let marked := cluster.annotations.get annSourceBackup
    let backupName :=
      if marked = [] then backupNameFromMarker (cluster.annotations.get annRestoreMarker)
      else marked
    let spec := if storageName = [] then none else cluster.spec.storages.lookup storageName
    some
      { storage := storageName
        backupName := backupName
        shardIndex := key.shard
        clusterName := cluster.annotations.get annSourceCluster
        storageSpec := spec
        credentialsSecret := (spec.map credentialsSecretForStorage).getD [] }

/-! ## The node -/

def buildValkeyNodeSpec (cluster : PerconaValkeyCluster) (key : NodeKey) (configHash : Str) :
    ValkeyNode where
  name := keyName cluster.name key
  labels := nodeLabels cluster.name key.shard key.node
  annotations := stampTLSHash ∅ (cluster.annotations.get annTLSHash)
  spec :=
    { image := cluster.spec.image
      imagePullSecrets := cluster.spec.imagePullSecrets
      workloadType := cluster.spec.workloadType
      persistence := cluster.spec.persistence
      resources := cluster.spec.resources
      nodeSelector := cluster.spec.nodeSelector
      affinity := cluster.spec.affinity
      tolerations := cluster.spec.tolerations
      topologySpreadConstraints := cluster.spec.topologySpreadConstraints
      exporter := cluster.spec.exporter
      containers := cluster.spec.containers
      tls := nodeTLSConfig cluster
      config := cluster.spec.config
      env := cluster.spec.env
      extraEnvVars := cluster.spec.extraEnvVars
      serviceAccountName := cluster.spec.serviceAccountName
      automountServiceAccountToken := cluster.spec.automountServiceAccountToken
      podSecurityContext := cluster.spec.podSecurityContext
      containerSecurityContext := cluster.spec.containerSecurityContext
      serverConfigMapName := resourceName cluster.name
      serverConfigHash := configHash
      aclSecretName := aclSecretName cluster.name
      announceHost := (announceForNode cluster key).1
      announcePort := (announceForNode cluster key).2
      restoreFrom := restoreSourceForNode cluster key }

/-- The positions of a cluster, replicas before the primary in each shard. -/
def desiredNodes (cluster : PerconaValkeyCluster) : List NodeKey :=
  (List.range cluster.spec.shards.toInt.toNat).flatMap fun shard : Nat =>
    ((List.range cluster.spec.replicas.toInt.toNat).map fun i : Nat => ⟨shard, i + 1⟩) ++ [⟨shard, 0⟩]

/-! ## Positions, names and labels -/

/-- An index as a 32-bit count can bound it. -/
def NodeKey.Valid (key : NodeKey) : Prop :=
  0 ≤ key.shard ∧ key.shard < 2 ^ 31 ∧ 0 ≤ key.node ∧ key.node < 2 ^ 31

theorem desiredNodes_valid {cluster : PerconaValkeyCluster} {key : NodeKey}
    (h : key ∈ desiredNodes cluster) : key.Valid := by
  have hs := cluster.spec.shards.toInt_lt
  have hr := cluster.spec.replicas.toInt_lt
  obtain ⟨shard, hshard, hkey⟩ := List.mem_flatMap.mp h
  have hshard := List.mem_range.mp hshard
  unfold NodeKey.Valid
  rcases List.mem_append.mp hkey with hkey | hkey
  · obtain ⟨i, hi, rfl⟩ := List.mem_map.mp hkey
    have hi := List.mem_range.mp hi
    dsimp only
    omega
  · rw [List.mem_singleton.mp hkey]
    dsimp only
    omega

theorem not_mem_itoa {n : Int} (h : 0 ≤ n) : '-' ∉ itoa n := fun hm =>
  absurd (isDigit_of_mem_itoa h hm) (by decide)

/-- A node's name determines its position. -/
theorem keyName_injective {cluster : Str} {key key' : NodeKey} (h' : key'.Valid)
    (heq : keyName cluster key = keyName cluster key') : key = key' := by
  unfold keyName nodeName at heq
  rw [List.append_assoc, List.append_assoc] at heq
  have hcancel := List.append_cancel_left heq
  rw [List.cons_append, List.cons_append, List.cons.injEq] at hcancel
  have hparts := (List.append_cons_inj_of_notMem (not_mem_itoa h'.1) (not_mem_itoa h'.2.2.1)).mp
    hcancel.2.symm
  cases key
  cases key'
  rw [NodeKey.mk.injEq]
  exact ⟨(itoa_injective hparts.1).symm, (itoa_injective hparts.2.2).symm⟩

/-- The labels of a position lead back to it. -/
theorem nodeLabels_get (cluster : Str) (shard node : Int) :
    (nodeLabels cluster shard node).get labelShardIndex = itoa shard ∧
      (nodeLabels cluster shard node).get labelNodeIndex = itoa node := by
  have hshard : (clusterTopologyLabels cluster shard node).get labelShardIndex = itoa shard := rfl
  have hnode : (clusterTopologyLabels cluster shard node).get labelNodeIndex = itoa node := rfl
  have hne : labelShardIndex ≠ labelNodeIndex := by decide
  unfold nodeLabels ownedLabels
  simp only [List.foldl_cons, List.foldl_nil]
  generalize copyLabel _ _ labelCluster = l
  unfold copyLabel
  rw [hshard, if_pos (itoa_ne_nil shard), hnode, if_pos (itoa_ne_nil node)]
  unfold StrMap.get
  rw [AList.lookup_insert_ne hne, AList.lookup_insert, AList.lookup_insert]
  exact ⟨rfl, rfl⟩

end ValkeyOperator.Cluster

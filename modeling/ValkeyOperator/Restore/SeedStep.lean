import ValkeyOperator.Restore.Compat
import ValkeyOperator.Restore.Passes
import ValkeyOperator.Restore.Reseeding
import ValkeyOperator.Restore.Source

/-! What the pods of a created target download.

The source that a restore has validated travels to the pods of its target by name: the
markers carry the storage's name and the names of the backup-set, the cluster looks the
storage up among its own, and the node's pod gets it as an environment. The coordinates
of the validated store are not carried along. So the seed step ends at the validated
source exactly if the target's template has a storage of that place under that name, and
its dump reaches the engine exactly if there is a data volume. -/

namespace ValkeyOperator.Restore
open Text Valkey Api
open Cluster ValkeyOperator.Node Backup

variable {merge : Merge} {node : ValkeyNode}

/-! ## The seed step of a pod -/

/-- The sidecar started in `c` downloads the dump of that shard from the source. -/
structure Downloads (src : LocatedSource) (shard : Int) (c : Container) : Prop where
  command : c.command =
    ["/valkey-backup".toList, "--download".toList, "--shard=".toList ++ itoa shard]
  place : ∃ cfg, storageConfigFromEnv c.env = .ok cfg ∧ cfg.place = src.config.place
  cluster : getenv c.env "VALKEY_BACKUP_CLUSTER" = src.cluster
  backup : getenv c.env "VALKEY_BACKUP_NAME" = src.backup

/-- The file `c` writes the dump to is in the data directory, on a volume that the engine
has mounted there. -/
def WritesData (c engine : Container) : Prop :=
  getenvOrDefault c.env "VALKEY_BACKUP_DOWNLOAD_DST" "/data/dump.rdb" =
      dataMountPath ++ "/dump.rdb" ∧
    ∃ m ∈ c.volumeMounts, m.mountPath = dataMountPath ∧ m.readOnly = false ∧
      ∃ m' ∈ engine.volumeMounts, m'.name = m.name ∧ m'.mountPath = dataMountPath

/-- A pod of the template seeds the shard from the source. -/
def SeedsFrom (src : LocatedSource) (shard : Int) (template : PodTemplate) : Prop :=
  ∃ c ∈ template.initContainers, c.name = restoreSeedName ∧ Downloads src shard c ∧
    ∃ engine, template.containers.head? = some engine ∧ WritesData c engine

/-- A node's seed is the source, looked up as a storage of its own cluster. -/
def Points (rs : RestoreSource) (src : LocatedSource) (shard : Int) : Prop :=
  rs.shardIndex = shard ∧ rs.clusterName = src.cluster ∧ rs.backupName = src.backup ∧
    ∃ storage, rs.storageSpec = some storage ∧ (storageConfig storage []).place = src.config.place

/-- The user's patch of the server container, if there is one, leaves the data volume
mounted. -/
def PatchKeepsData (merge : Merge) (node : ValkeyNode) :
    Prop :=
  ∀ patch, patchFor node.spec.containers "server" = some patch →
    ∀ merged, merge (buildServerContainer node) patch = .ok merged →
      ∃ m ∈ merged.volumeMounts, m.name = nodePVCName node.name ∧ m.mountPath = dataMountPath

/-! ## The environment reads back -/

section Environment

variable (rs : RestoreSource)

/-- What the seed container is given. -/
def seedParams : JobEnvParams :=
  { cluster := rs.clusterName, backup := rs.backupName, spec := rs.storageSpec }

theorem getenv_seed_cluster :
    getenv (jobEnv (seedParams rs)) "VALKEY_BACKUP_CLUSTER" = rs.clusterName :=
  getenv_jobEnv List.mem_cons_self

theorem getenv_seed_name :
    getenv (jobEnv (seedParams rs)) "VALKEY_BACKUP_NAME" = rs.backupName :=
  getenv_jobEnv (List.mem_cons_of_mem _ List.mem_cons_self)

theorem seed_destination :
    getenvOrDefault (jobEnv (seedParams rs)) "VALKEY_BACKUP_DOWNLOAD_DST"
      "/data/dump.rdb" = dataMountPath ++ "/dump.rdb" := by
  have hunset : getenv (jobEnv (seedParams rs)) "VALKEY_BACKUP_DOWNLOAD_DST" = [] :=
    getenv_jobEnv (List.mem_append_right _ (List.mem_singleton.mpr rfl))
  unfold getenvOrDefault
  rw [hunset, if_pos rfl]
  rfl

theorem seed_place_iff (place : Place) :
    (∃ cfg, storageConfigFromEnv (jobEnv (seedParams rs)) = .ok cfg ∧ cfg.place = place) ↔
      ∃ storage, rs.storageSpec = some storage ∧ (storageConfig storage []).place = place := by
  cases hspec : rs.storageSpec with
  | none =>
    refine iff_of_false ?_ fun ⟨_, hsome, _⟩ => nomatch hsome
    rintro ⟨cfg, hcfg, -⟩
    exact storageConfigFromEnv_none (p := seedParams rs) hspec cfg hcfg
  | some storage =>
    obtain ⟨cfg, hcfg, hplace⟩ := storageConfigFromEnv_jobEnv (p := seedParams rs) hspec
    rw [hcfg]
    constructor
    · rintro ⟨cfg', hcfg', hplace'⟩
      cases hcfg'
      exact ⟨storage, rfl, hplace.symm.trans hplace'⟩
    · rintro ⟨storage', hstorage', hplace'⟩
      cases hstorage'
      exact ⟨cfg, rfl, hplace.trans hplace'⟩

theorem downloads_iff (node : ValkeyNode) (src : LocatedSource) (shard : Int) :
    Downloads src shard (buildRestoreSeedContainer node rs) ↔ Points rs src shard := by
  have henv : (buildRestoreSeedContainer node rs).env = jobEnv (seedParams rs) := rfl
  have hcommand : (buildRestoreSeedContainer node rs).command =
      ["/valkey-backup".toList, "--download".toList, "--shard=".toList ++ itoa shard] ↔
      rs.shardIndex = shard := by
    constructor
    · intro h
      have hshard : "--shard=" ++ itoa rs.shardIndex = "--shard=" ++ itoa shard :=
        (List.cons.inj (List.cons.inj (List.cons.inj h).2).2).1
      exact itoa_injective (List.append_cancel_left hshard)
    · rintro rfl
      rfl
  constructor
  · intro h
    refine ⟨hcommand.mp h.command, ?_, ?_, (seed_place_iff rs _).mp (henv ▸ h.place)⟩
    · exact (getenv_seed_cluster rs).symm.trans (henv ▸ h.cluster)
    · exact (getenv_seed_name rs).symm.trans (henv ▸ h.backup)
  · rintro ⟨hshard, hcluster, hbackup, hstorage⟩
    refine ⟨hcommand.mpr hshard, ?_, ?_, ?_⟩
    · rw [henv]
      exact (seed_place_iff rs _).mpr hstorage
    · rw [henv]
      exact (getenv_seed_cluster rs).trans hcluster
    · rw [henv]
      exact (getenv_seed_name rs).trans hbackup

end Environment

/-! ## The engine of a rendered pod -/

theorem render_engine {template : PodTemplate} (h : render merge node = .ok template) :
    ∃ engine, template.containers.head? = some engine ∧
      mergeOne merge node.spec.containers (buildServerContainer node) = .ok engine := by
  unfold render buildPodTemplate at h
  cases hcontainers : buildContainers merge node with
  | error e =>
    rw [hcontainers] at h
    cases h
  | ok containers =>
    rw [hcontainers] at h
    cases h
    unfold buildContainers mergeContainerPatch at hcontainers
    split at hcontainers
    · cases hcontainers
    · rename_i merged hmerged
      cases hcontainers
      rw [List.mapM_cons] at hmerged
      obtain ⟨engine, hengine, hrest⟩ := Staged.bind_eq_ok.mp hmerged
      obtain ⟨others, -, hpure⟩ := Staged.bind_eq_ok.mp hrest
      cases hpure
      exact ⟨engine, rfl, hengine⟩

theorem server_mounts_data (hdata : node.spec.persistence.isSome = true) :
    (⟨nodePVCName node.name, dataMountPath, false⟩ : VolumeMount) ∈
      (buildServerContainer node).volumeMounts := by
  have hmount : (⟨nodePVCName node.name, dataMountPath, false⟩ : VolumeMount) ∈ dataMount node := by
    unfold dataMount
    rw [if_pos hdata]
    exact List.mem_singleton.mpr rfl
  exact List.mem_append_left _ (List.mem_append_left _ (List.mem_append_left _
    (List.mem_append_right _ hmount)))

theorem engine_mounts_iff {engine : Container} (hdata : node.spec.persistence.isSome = true)
    (h : mergeOne merge node.spec.containers (buildServerContainer node) = .ok engine) :
    (∃ m ∈ engine.volumeMounts, m.name = nodePVCName node.name ∧ m.mountPath = dataMountPath) ↔
      PatchKeepsData merge node := by
  unfold PatchKeepsData
  rcases mergeOne_eq_ok h with ⟨hnone, rfl⟩ | ⟨patch, hpatch, hmerged⟩
  · refine iff_of_true ⟨_, server_mounts_data hdata, rfl, rfl⟩ fun patch hpatch => ?_
    exact absurd (hnone.symm.trans hpatch) (by simp)
  · constructor
    · intro hmounts patch' hpatch' merged' hmerged'
      cases hpatch.symm.trans hpatch'
      cases hmerged.symm.trans hmerged'
      exact hmounts
    · exact fun hkeeps => hkeeps patch hpatch _ hmerged

theorem writesData_iff {rs : RestoreSource} {engine : Container}
    (h : mergeOne merge node.spec.containers (buildServerContainer node) = .ok engine) :
    WritesData (buildRestoreSeedContainer node rs) engine ↔
      node.spec.persistence.isSome = true ∧ PatchKeepsData merge node := by
  have hmounts : (buildRestoreSeedContainer node rs).volumeMounts = dataMount node := rfl
  unfold WritesData
  rw [hmounts]
  unfold dataMount
  by_cases hdata : node.spec.persistence.isSome = true
  · rw [if_pos hdata, ← engine_mounts_iff hdata h]
    constructor
    · rintro ⟨-, m, hm, -, -, hengine⟩
      cases List.mem_singleton.mp hm
      exact ⟨hdata, hengine⟩
    · rintro ⟨-, hengine⟩
      exact ⟨seed_destination rs, _, List.mem_singleton.mpr rfl, rfl, rfl, hengine⟩
  · rw [if_neg hdata]
    refine iff_of_false ?_ fun hboth => hdata hboth.1
    rintro ⟨-, m, hm, -⟩
    cases hm

theorem seedsFrom_iff {template : PodTemplate} (h : render merge node = .ok template)
    (src : LocatedSource) (shard : Int) :
    SeedsFrom src shard template ↔
      (∃ rs, node.spec.restoreFrom = some rs ∧ Points rs src shard) ∧
        node.spec.persistence.isSome = true ∧ PatchKeepsData merge node := by
  obtain ⟨engine, hhead, hengine⟩ := render_engine h
  unfold SeedsFrom
  rw [render_initContainers h, hhead]
  unfold buildInitContainers
  cases node.spec.restoreFrom with
  | none => exact iff_of_false (fun ⟨_, hc, _⟩ => nomatch hc) fun ⟨⟨_, hrs, _⟩, _⟩ => nomatch hrs
  | some rs =>
    constructor
    · rintro ⟨c, hc, -, hdownloads, engine', hengine', hwrites⟩
      cases List.mem_singleton.mp hc
      cases hengine'
      exact ⟨⟨rs, rfl, (downloads_iff rs node src shard).mp hdownloads⟩,
        (writesData_iff hengine).mp hwrites⟩
    · rintro ⟨⟨rs', hrs', hpoints⟩, hdata⟩
      cases hrs'
      exact ⟨_, List.mem_singleton.mpr rfl, rfl, (downloads_iff rs node src shard).mpr hpoints,
        engine, rfl, (writesData_iff hengine).mpr hdata⟩

/-! ## The created target -/

/-- What the validation phase of a restore has accepted: the source it has resolved, in a
store that opens, with a manifest that fits. -/
structure Validated (backups : Except Err (List PerconaValkeyBackup)) (env : RestoreEnv)
    (rst : PerconaValkeyRestore) (src : LocatedSource) (man : Manifest) : Prop where
  resolved : resolveSource backups rst = .ok src
  source : env.source = .ok src.toResolvedSource
  opened : ∃ credentials store, newStore credentials src.config = .ok store
  manifest : env.manifest = .ok man
  accepted : ∃ verdict, validateCompat rst env.template man = .ok verdict

/-- The storage of the template that the source leads to: the one of its name, the only
one if it names none. -/
def sourceStorage (template : ClusterSpec) (src : LocatedSource) : Option BackupStorageSpec :=
  let name :=
    if src.storageName ≠ [] then src.storageName
    else
      match template.storages.keys with
      | [name] => name
      | _ => []
  if name = [] then none else template.storages.lookup name

/-- The template has the validated place under the source's storage name. -/
def OffersPlace (template : ClusterSpec) (src : LocatedSource) : Prop :=
  ∃ storage, sourceStorage template src = some storage ∧
    (storageConfig storage []).place = src.config.place

/-- The seed of a primary of the created cluster. -/
theorem newTarget_restoreSource (env : RestoreEnv) (rst : PerconaValkeyRestore)
    {src : LocatedSource} (man : Manifest) (hbackup : src.backup ≠ []) (shard : Int) :
    ∃ rs, restoreSourceForNode (newTarget env rst src.toResolvedSource man) ⟨shard, 0⟩ = some rs ∧
      rs.shardIndex = shard ∧ rs.clusterName = src.cluster ∧ rs.backupName = src.backup ∧
      rs.storageSpec = sourceStorage (env.template.getD {}) src ∧
      rs.credentialsSecret =
        ((sourceStorage (env.template.getD {}) src).map credentialsSecretForStorage).getD [] := by
  have hannotations : (newTarget env rst src.toResolvedSource man).annotations =
      putAll (restoreMarkerAnnotations rst src.toResolvedSource) ∅ := by rw [newTarget]
  have hmarker : (putAll (restoreMarkerAnnotations rst src.toResolvedSource) ∅).lookup
      annRestoreMarker = some (restoreMarkerValue rst) := by
    have hmem : (annRestoreMarker, restoreMarkerValue rst) ∈
        restoreMarkerAnnotations rst src.toResolvedSource := by simp [restoreMarkerAnnotations]
    exact lookup_putAll_of_mem (restoreMarkerAnnotations_nodup rst src.toResolvedSource) hmem
  have hget : ∀ key value, (key, value) ∈ markers rst src.toResolvedSource →
      StrMap.get (newTarget env rst src.toResolvedSource man).annotations key = value :=
    fun key value hmem => by rw [hannotations, get_marker hmem]
  have hmarked : isRestoreTarget (newTarget env rst src.toResolvedSource man) = true := by
    unfold isRestoreTarget
    rw [hannotations, hmarker]
    rfl
  have hstorage := hget annRestoreStorage src.storageName (by simp [markers])
  have hcluster := hget annSourceCluster src.cluster (by simp [markers])
  have hname := hget annSourceBackup src.backup (by simp [markers])
  have hfound : storageForRestore (newTarget env rst src.toResolvedSource man) =
      if src.storageName ≠ [] then src.storageName
      else
        match (env.template.getD {}).storages.keys with
        | [name] => name
        | _ => [] := by
    unfold storageForRestore
    rw [hstorage]
    rfl
  have hspec : (newTarget env rst src.toResolvedSource man).spec.storages =
      (env.template.getD {}).storages := rfl
  unfold restoreSourceForNode
  rw [hmarked, hfound, hcluster, hname, Bool.not_true, if_neg Bool.false_ne_true,
    if_neg (fun hne => hne rfl)]
  dsimp only
  rw [if_neg hbackup, hspec]
  exact ⟨_, rfl, rfl, rfl, rfl, rfl, rfl⟩

/-- The pod of a primary of the cluster that a restore creates seeds from the validated
source exactly if the template has the source's place among its storages under the
source's storage name, has persistent volumes, and does not patch the data volume away. -/
theorem created_seeds_iff {backups : Except Err (List PerconaValkeyBackup)} {env : RestoreEnv}
    {rst : PerconaValkeyRestore} {src : LocatedSource} {man : Manifest}
    (h : Validated backups env rst src man)
    (merge : Merge) (configHash : Str) {key : NodeKey}
    (hkey : key ∈ desiredNodes (newTarget env rst src.toResolvedSource man) ∧ key.node = 0)
    {template : PodTemplate}
    (hrender : render merge (buildValkeyNodeSpec (newTarget env rst src.toResolvedSource man) key
      configHash) = .ok template) :
    SeedsFrom src key.shard template ↔
      OffersPlace (env.template.getD {}) src ∧ (env.template.getD {}).persistence.isSome = true ∧
        PatchKeepsData merge (buildValkeyNodeSpec (newTarget env rst src.toResolvedSource man) key
          configHash) := by
  obtain ⟨shard, node⟩ := key
  obtain ⟨-, rfl⟩ : _ ∧ node = 0 := hkey
  obtain ⟨rs, hseed, hshard, hcluster, hbackup, hspec, -⟩ :=
    newTarget_restoreSource env rst man (resolveSource_backup h.resolved) shard
  rw [seedsFrom_iff hrender]
  refine and_congr ?_ Iff.rfl
  change (∃ rs, restoreSourceForNode _ _ = some rs ∧ _) ↔ _
  rw [hseed]
  unfold OffersPlace
  rw [← hspec]
  constructor
  · rintro ⟨rs', hrs', -, -, -, hplace⟩
    cases hrs'
    exact hplace
  · exact fun hplace => ⟨rs, rfl, hshard, hcluster, hbackup, hplace⟩

/-! ## A restore with and without a fitting template -/

def seedBucket : StorageCoordinates where
  bucket := "backups"
  endpointURL := "http://minio:9000"
  credentialsSecret := "creds"

/-- A finished backup in a bucket. -/
def bucketBackup : PerconaValkeyBackup where
  name := "b1"
  spec := { clusterName := "src", storageName := "s3" }
  status := { state := .succeeded, destination := "s3://backups/src/b1"
              storageName := "s3", s3 := some seedBucket }

def bucketSource : LocatedSource where
  cluster := "src"
  backup := "b1"
  storageName := "s3"
  config := { type := .s3, s3 := some seedBucket }

def oneShardManifest : Manifest where
  cluster := "src"
  backupName := "b1"
  mode := []
  crVersion := []
  engineVersion := []
  createdAt := []
  consistency := []
  shards := [{ index := 0, primaryNodeID := "a1", slotRanges := "0-16383"
               rdbKey := [], sizeBytes := 5, sha256 := [], masterReplOffset := 0 }]

/-- A pass that resolves to the bucket, for a restore with that template. -/
def bucketEnv (template : Option ClusterSpec) : RestoreEnv where
  source := .ok bucketSource.toResolvedSource
  manifest := .ok oneShardManifest
  verdict := .ok "complete"
  template := template

theorem bucket_validated {template : Option ClusterSpec}
    (hcount : validateShardCount template oneShardManifest = .ok ()) :
    Validated (.ok [bucketBackup]) (bucketEnv template) pendingWorld.restore bucketSource
      oneShardManifest where
  resolved := rfl
  source := rfl
  opened := ⟨fun _ => [], _, rfl⟩
  manifest := rfl
  accepted := by
    have hparsed : oneShardManifest.shards.mapM shardRanges = .ok [[⟨0, 16383⟩]] := by
      decide +kernel
    refine validateCompat_of_exact _ hparsed ⟨by decide, by decide, fun s => ?_⟩ (by decide) hcount
    rw [List.flatten_cons, List.flatten_nil, List.append_nil, covers_singleton]
    unfold maxSlot totalSlots
    dsimp only
    omega

/-- A template with the source's bucket and with persistent volumes. -/
def fittingTemplate : ClusterSpec where
  persistence := some { size := ⟨"1Gi", 1073741824⟩ }
  storages := [⟨"s3", { type := .s3, s3 := some seedBucket }⟩].toAList

/-- The cluster that the restore of the bucket creates. -/
def bucketTarget (template : Option ClusterSpec) : PerconaValkeyCluster :=
  newTarget (bucketEnv template) pendingWorld.restore bucketSource.toResolvedSource oneShardManifest

/-- With it the pods of the created cluster do seed from the validated source. -/
theorem created_seeds_fitting :
    ∃ template, render (fun c _ => .ok c)
        (buildValkeyNodeSpec (bucketTarget (some fittingTemplate)) ⟨0, 0⟩ []) = .ok template ∧
      SeedsFrom bucketSource 0 template := by
  have hrender : ∃ template, render (fun c _ => .ok c)
      (buildValkeyNodeSpec (bucketTarget (some fittingTemplate)) ⟨0, 0⟩ []) = .ok template :=
    ⟨_, rfl⟩
  obtain ⟨template, hrender⟩ := hrender
  have hvalid : Validated (.ok [bucketBackup]) (bucketEnv (some fittingTemplate))
      pendingWorld.restore bucketSource oneShardManifest := bucket_validated rfl
  have hkey : (⟨0, 0⟩ : NodeKey) ∈ desiredNodes (bucketTarget (some fittingTemplate)) := by decide
  refine ⟨template, hrender, (created_seeds_iff hvalid _ [] ⟨hkey, rfl⟩ hrender).mpr ?_⟩
  refine ⟨⟨_, rfl, rfl⟩, rfl, fun patch hpatch => ?_⟩
  cases hpatch

/-- A restore of a backup by its name, without a template: it is accepted, and the pods of
the cluster it creates have neither a storage to download from nor a volume to put the
dump on. -/
theorem created_seeds_nothing :
    Validated (.ok [bucketBackup]) (bucketEnv none) pendingWorld.restore bucketSource
        oneShardManifest ∧
      (⟨0, 0⟩ : NodeKey) ∈ desiredNodes (bucketTarget none) ∧
      ∃ template, render (fun c _ => .ok c)
          (buildValkeyNodeSpec (bucketTarget none) ⟨0, 0⟩ []) = .ok template ∧
        ¬ SeedsFrom bucketSource 0 template := by
  have hrender : ∃ template, render (fun c _ => .ok c)
      (buildValkeyNodeSpec (bucketTarget none) ⟨0, 0⟩ []) = .ok template := ⟨_, rfl⟩
  obtain ⟨template, hrender⟩ := hrender
  refine ⟨bucket_validated rfl, by decide, template, hrender, ?_⟩
  rw [seedsFrom_iff hrender]
  rintro ⟨-, hdata, -⟩
  cases hdata

end ValkeyOperator.Restore

import ValkeyOperator.Backup.JobEnv
import ValkeyOperator.Backup.Snapshot
import ValkeyOperator.Backup.Types

/-! Storages and Jobs of a backup (`perconavalkeybackup/defaults.go`, `job.go` and
the Job of `finalizers.go`).

What the controller decides from what it has read: the storage an entry of the
cluster names, the Job it asks for, and the verdict on a Job and its manifest. -/

namespace ValkeyOperator.Backup
open Text Api

/-! ## Storages -/

structure ResolvedStorage where
  name : Str
  spec : BackupStorageSpec
  credsSecret : Str
  destination : Str
deriving DecidableEq

def requiredCredKeys : BackupStorageType → List Str
  | .s3 => ["AWS_ACCESS_KEY_ID", "AWS_SECRET_ACCESS_KEY"]
  | .gcs => ["GOOGLE_APPLICATION_CREDENTIALS_JSON"]
  | .azure => ["AZURE_STORAGE_ACCOUNT", "AZURE_STORAGE_KEY"]
  | .filesystem => []

/-- Scheme, bucket, prefix and credentials; the sub-object of the type is needed. -/
def storageCoordinates (spec : BackupStorageSpec) : Except Err (Str × StorageCoordinates) :=
  let required (scheme : Str) : Option StorageCoordinates → Except Err (Str × StorageCoordinates)
    | some c => .ok (scheme, c)
    | none => .error { msg := "storage type " ++ storageTypeName spec.type ++
        " requires the " ++ storageTypeName spec.type ++ " sub-object" }
  match spec.type with
  | .s3 => required schemeS3 spec.s3
  | .gcs => required schemeGCS spec.gcs
  | .azure => required schemeAzure spec.azure
  | .filesystem => .ok (schemePVC, { bucket := [] })

def resolveStorage (cluster : PerconaValkeyCluster) (bk : PerconaValkeyBackup) :
    Except Err ResolvedStorage :=
  match cluster.spec.storages.lookup bk.spec.storageName with
  | none => .error { msg := "storageName " ++ quote bk.spec.storageName ++
      " not found in cluster " ++ quote cluster.name ++ " spec.backup.storages" }
  | some spec => do
    let (scheme, c) ← storageCoordinates spec
    pure {
      name := bk.spec.storageName
      spec := spec
      credsSecret := c.credentialsSecret
      destination := formatDestination scheme c.bucket c.keyPrefix cluster.name bk.name }

/-- The Secret is looked up only if the type needs credentials; only the presence of
its keys is checked. -/
def validateCredsSecret (secret : Str → Except Err (Option (List Str))) (rs : ResolvedStorage) :
    Except Err Unit :=
  if requiredCredKeys rs.spec.type = [] then .ok ()
  else if rs.credsSecret = [] then
    .error { msg := "storage " ++ quote rs.name ++ " (type " ++
      storageTypeName rs.spec.type ++ ") requires a credentialsSecret" }
  else
    match secret rs.credsSecret with
    | .error e => .error (e.wrap ("get credentialsSecret " ++ quote rs.credsSecret))
    | .ok none => .error { msg := "credentialsSecret " ++ quote rs.credsSecret ++
        " for storage " ++ quote rs.name ++ " not found" }
    | .ok (some keys) =>
      let missing := (requiredCredKeys rs.spec.type).filter fun k => !keys.contains k
      let listed := join [' '] (missing.insertionSort fun a b => a ≤ b)
      if missing = [] then .ok ()
      else .error { msg := "credentialsSecret " ++ quote rs.credsSecret ++
        " for storage " ++ quote rs.name ++ " is missing key(s) [" ++ listed ++
        "]" }

/-- The storage of a backup, from the cluster and the Secret as they were read. -/
def resolveDefaults (cluster : Except Err (Option PerconaValkeyCluster))
    (secret : Str → Except Err (Option (List Str))) (bk : PerconaValkeyBackup) :
    Except Err ResolvedStorage :=
  if bk.spec.clusterName = [] then .error { msg := "spec.clusterName is required" }
  else if bk.spec.storageName = [] then .error { msg := "spec.storageName is required" }
  else
    match cluster with
    | .error e => .error (e.wrap ("get cluster " ++ quote bk.spec.clusterName))
    | .ok none =>
      .error { msg := "cluster " ++ quote bk.spec.clusterName ++ " not found" }
    | .ok (some cluster) => do
      let rs ← resolveStorage cluster bk
      validateCredsSecret secret rs
      pure rs

theorem resolveDefaults_ok {got : Except Err (Option PerconaValkeyCluster)}
    {secret : Str → Except Err (Option (List Str))} {bk : PerconaValkeyBackup}
    {rs : ResolvedStorage} (h : resolveDefaults got secret bk = .ok rs) :
    ∃ cluster, got = .ok (some cluster) ∧ resolveStorage cluster bk = .ok rs := by
  unfold resolveDefaults at h
  split at h
  · cases h
  split at h
  · cases h
  split at h
  · cases h
  · cases h
  · rename_i cluster
    refine ⟨cluster, rfl, ?_⟩
    cases hstorage : resolveStorage cluster bk with
    | error e =>
      rw [hstorage] at h
      cases h
    | ok resolved =>
      rw [hstorage] at h
      change (validateCredsSecret secret resolved >>= fun _ => pure resolved) = _ at h
      cases hcreds : validateCredsSecret secret resolved with
      | error e =>
        rw [hcreds] at h
        cases h
      | ok _ =>
        rw [hcreds] at h
        exact h

/-- The status fields that make a restore independent of the cluster. -/
def hydrateStorage (bk : PerconaValkeyBackup) (rs : ResolvedStorage) : PerconaValkeyBackup :=
  { bk with status := { bk.status with
      storageName := rs.name
      destination := rs.destination
      s3 := rs.spec.s3
      gcs := rs.spec.gcs
      azure := rs.spec.azure } }

/-! ## Jobs -/

inductive JobConditionType where
  | complete
  | failed
deriving DecidableEq

structure JobCondition where
  type : JobConditionType
  status : Bool
  reason : Str := []
  message : Str := []
deriving DecidableEq

/-- The container of a Job. -/
structure JobTemplate where
  args : List Str := []
  /-- what the environment is rendered from, and the entries behind it -/
  params : JobEnvParams
  extraEnv : List EnvVar := []
  /-- the Secret whose keys are variables too, unless empty -/
  credsSecret : Str := []

structure Job extends JobTemplate where
  uid : Nat
  /-- the backup that had it created: the controller reference of a backup Job -/
  creator : Nat
  conditions : List JobCondition := []
  failedPods : Int := 0

def jobConditionTrue (job : Job) (type : JobConditionType) : Bool :=
  job.conditions.any fun c => c.type = type && c.status

/-- Neither complete nor failed. -/
def Job.active (job : Job) : Bool :=
  !jobConditionTrue job .complete && !jobConditionTrue job .failed

def toLowerASCII (s : Str) : Str :=
  s.map fun c => if 'A' ≤ c ∧ c ≤ 'Z' then Char.ofNat (c.toNat + 32) else c

def containsFold (s substr : Str) : Bool :=
  (toLowerASCII s).tails.any fun rest => hasPrefix rest (toLowerASCII substr)

def jobReasonEvicted : Str := "Evicted"

def jobEvicted (job : Job) : Bool :=
  job.conditions.any fun c =>
    c.type = .failed && c.status &&
      (c.reason = jobReasonEvicted || containsFold c.message "evict")

def reasonStorageError : Str := "StorageError"
def reasonWaitingForLock : Str := "WaitingForLock"
def reasonClusterNotReady : Str := "ClusterNotReady"
def reasonJobRunning : Str := "JobRunning"
def reasonJobCreateError : Str := "JobCreateError"
def reasonManifestError : Str := "ManifestError"
def reasonIncompleteCover : Str := "IncompleteCoverage"
def reasonJobEvicted : Str := "JobEvicted"
def reasonDeadlineExceeded : Str := "DeadlineExceeded"
def reasonSucceeded : Str := "BackupSucceeded"
def reasonDegraded : Str := "BackupDegraded"

/-- The reason of the state and its message, from the condition that says Failed. -/
def jobFailureReason (job : Job) : Str × Str :=
  match job.conditions.find? fun c => c.type = .failed && c.status with
  | some c =>
    if c.reason = "DeadlineExceeded" then
      (reasonDeadlineExceeded, "backup Job exceeded activeDeadlineSeconds")
    else if c.message ≠ [] then
      (reasonJobCreateError, "backup Job failed: " ++ c.message)
    else (reasonJobCreateError, "backup Job failed: " ++ c.reason)
  | none => (reasonJobCreateError,
      "backup Job failed (failed pods: " ++ itoa job.failedPods ++ [')'])

theorem jobConditionTrue_of_evicted {job : Job} (h : jobEvicted job = true) :
    jobConditionTrue job .failed = true := by
  obtain ⟨c, hc, hfailed⟩ := List.any_eq_true.mp h
  refine List.any_eq_true.mpr ⟨c, hc, ?_⟩
  simp only [Bool.and_eq_true] at hfailed ⊢
  exact hfailed.1

def backupJobName (bk : Str) : Str := resourceName bk ++ "-backup"

def cleanupJobName (bk : Str) : Str := resourceName bk ++ "-cleanup"

def cleanupArgs : List Str := ["--cleanup"]

theorem backupJobName_injective {a b : Str} (h : backupJobName a = backupJobName b) : a = b :=
  List.append_cancel_left (List.append_cancel_right h)

theorem backupJobName_ne_cleanup (a b : Str) : backupJobName a ≠ cleanupJobName b := by
  intro h
  have hlast := congrArg (fun s => s.reverse.take 7) h
  simp [backupJobName, cleanupJobName] at hlast

def modeText : ClusterMode → Str
  | .cluster => "cluster"
  | .replication => "replication"

def consistencyText : BackupConsistency → Str
  | .strict => "strict"
  | .bestEffort => "best-effort"

def tlsCAMountPath : Str := "/etc/valkey/tls/ca.crt"

def backupSeedNode (cluster : Str) : Str := resourceName cluster ++ ':' :: itoa clientPort

/-- What the backup Job's environment is rendered from. -/
def backupJobParams (bk : PerconaValkeyBackup) (cluster : PerconaValkeyCluster)
    (rs : ResolvedStorage) : JobEnvParams where
  cluster := bk.spec.clusterName
  backup := bk.name
  spec := some rs.spec
  mode := modeText cluster.spec.mode
  crVersion := cluster.spec.crVersion
  consistency := consistencyText (bk.spec.consistency.getD .strict)
  seedNode := backupSeedNode cluster.name
  authUser := "_backup"
  tlsEnabled := cluster.spec.tls.isSome
  tlsCAFile := if cluster.spec.tls.isSome then tlsCAMountPath else []

def containerExtraArgs (bk : PerconaValkeyBackup) : List Str :=
  (bk.spec.containerOptions.map (·.args)).getD []

def containerExtraEnv (bk : PerconaValkeyBackup) : List EnvVar :=
  (bk.spec.containerOptions.map (·.env)).getD []

/-- The user's arguments and variables come last. -/
def desiredBackupJob (bk : PerconaValkeyBackup) (cluster : PerconaValkeyCluster)
    (rs : ResolvedStorage) : JobTemplate where
  args := containerExtraArgs bk
  params := backupJobParams bk cluster rs
  extraEnv := { name := "VALKEY_BACKUP_AUTH_PASSWORD", value := []
                valueFrom := "internal-" ++ cluster.name ++
                  "-system-passwords/_backup" } :: containerExtraEnv bk
  credsSecret := rs.credsSecret

/-- The cleanup Job gets the names and the storage. -/
def desiredCleanupJob (bk : PerconaValkeyBackup) (rs : ResolvedStorage) : JobTemplate where
  args := cleanupArgs
  params := { cluster := bk.spec.clusterName, backup := bk.name, spec := some rs.spec }
  credsSecret := rs.credsSecret

/-! ## Verdicts -/

def describe (reason msg : Str) : Str := reason ++ ": " ++ msg

def failBackup (now : Int) (bk : PerconaValkeyBackup) (reason msg : Str) : PerconaValkeyBackup :=
  setState { bk with status := { bk.status with
    completed := if bk.status.completed = none then some now else bk.status.completed } } .failed
    (describe reason msg)

def hydrateFromManifest (bk : PerconaValkeyBackup) (man : Manifest) : PerconaValkeyBackup :=
  { bk with status := { bk.status with
      valkeyVersion := man.engineVersion
      slotCoverage :=
        some (if man.slotCoverage = "complete" then .complete else .partialCover)
      shards := man.shards.map fun s =>
        { shardIndex := Int.bmod s.index (2 ^ 32)
          slotRange := s.slotRanges
          rdbObject := s.rdbKey
          sizeBytes := s.sizeBytes
          checksum := s.sha256 } } }

/-- The verdict on a complete Job, from what reading its manifest gave. -/
def handleJobComplete (now : Int) (manifest : Except Err Manifest) (bk : PerconaValkeyBackup) :
    PerconaValkeyBackup :=
  match manifest with
  | .error e =>
    failBackup now bk reasonManifestError
      ("backup Job completed but manifest unreadable: " ++ e.msg)
  | .ok man =>
    let bk := hydrateFromManifest bk man
    let bk := { bk with status := { bk.status with completed := some now } }
    if bk.status.slotCoverage = some .complete then
      setState bk .succeeded (describe reasonSucceeded "all 16384 slots covered")
    else if bk.spec.consistency = some .strict then
      failBackup now bk reasonIncompleteCover "strict backup with partial slot coverage"
    else
      setState bk .succeeded
        (describe reasonDegraded "partial slot coverage (best-effort)")

end ValkeyOperator.Backup

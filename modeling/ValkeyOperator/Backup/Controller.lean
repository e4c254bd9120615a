import ValkeyOperator.Backup.Jobs
import ValkeyOperator.Backup.Lease
import ValkeyOperator.Lib.Runs
import ValkeyOperator.Lib.Triple

/-! The controller of backups (`perconavalkeybackup/controller.go`, `job.go`,
`finalizers.go`).

A pass reads one backup and takes it one step on: it waits for the cluster and the
lock, creates the Job, watches it to a verdict, or cleans up behind a deleted
backup. Passes come one after the other; between them Jobs make progress, objects
come and go, and time passes. -/

namespace ValkeyOperator.Backup
open Text Api

/-! ## The namespace -/

/-- The objects of one namespace, each kind by name; a lock by the name of its
cluster. -/
structure BackupWorld where
  ns : Str
  clock : Int
  nextUid : Nat
  clusters : Str → Option PerconaValkeyCluster
  /-- keys and values of a Secret -/
  secrets : Str → Option (List (Str × Str))
  backups : Str → Option PerconaValkeyBackup
  jobs : Str → Option Job
  leases : Str → Versioned Lease

namespace BackupWorld

def setBackup (name : Str) (bk : Option PerconaValkeyBackup) (w : BackupWorld) : BackupWorld :=
  { w with backups := Function.update w.backups name bk }

def setJob (name : Str) (job : Option Job) (w : BackupWorld) : BackupWorld :=
  { w with jobs := Function.update w.jobs name job }

def setLease (cluster : Str) (lease : Versioned Lease) (w : BackupWorld) : BackupWorld :=
  { w with leases := Function.update w.leases cluster lease }

/-- Create a Job under a name; one that exists already is left alone. -/
def spawn (name : Str) (creator : Nat) (template : JobTemplate) (w : BackupWorld) : BackupWorld :=
  match w.jobs name with
  | some _ => w
  | none =>
    { w.setJob name (some { template with uid := w.nextUid, creator := creator }) with
      nextUid := w.nextUid + 1 }

section Spawn

variable (name : Str) (creator : Nat) (template : JobTemplate) (w : BackupWorld)

@[simp] theorem spawn_backups : (w.spawn name creator template).backups = w.backups := by
  unfold spawn
  split <;> rfl

@[simp] theorem spawn_clusters : (w.spawn name creator template).clusters = w.clusters := by
  unfold spawn
  split <;> rfl

variable {name creator template w}

theorem spawn_nextUid (h : w.jobs name = none) :
    (w.spawn name creator template).nextUid = w.nextUid + 1 := by
  simp [spawn, h]

end Spawn

/-- The lock of a cluster at the current time. -/
def lock (cluster : Str) (w : BackupWorld) : LeaseWorld := ⟨w.clock, w.leases cluster⟩

end BackupWorld

/-- What the calls of a pass meet. -/
structure BackupInputs where
  bkGet : Option Err := none
  finalizerPatch : Option Fault := none
  /-- reads of the cluster: for the storage, before the snapshot, for the Job -/
  defaultsGet : Option Err := none
  snapshotGet : Option Err := none
  jobSpecGet : Option Err := none
  secretGet : Option Err := none
  acquire : LeaseReq → Option Fault := fun _ => none
  renew : LeaseReq → Option Fault := fun _ => none
  /-- the release behind a Job that could not be created, and the one at the end -/
  releaseFirst : LeaseReq → Option Fault := fun _ => none
  release : LeaseReq → Option Fault := fun _ => none
  /-- the reads of the Job: the second one before a vanished Job is created again -/
  jobGet : Option Err := none
  jobGetAgain : Option Err := none
  jobCreate : Option Fault := none
  /-- what reading the manifest of a complete Job gives -/
  manifest : Except Err Manifest := .error { msg := "object not found", notExist := true }
  statusGet : Option Err := none
  statusWrite : Option Fault := none
  cleanupGet : Option Err := none
  cleanupJobGet : Option Err := none
  cleanupSpecGet : Option Err := none
  cleanupJobCreate : Option Fault := none
  cleanupJobDelete : Option Fault := none
  finalizerRemove : Option Fault := none

def finalizerDeleteBackup : Str := "valkey.percona.com/delete-backup"

def errNotFound : Err := { msg := "not found", notExist := true }

/-- An operation on the lock of a cluster. -/
def onLock {α : Type} (faults : LeaseReq → Option Fault) (cluster : Str)
    (program : LeaseCalls (Except Err α)) : Action BackupWorld α := fun w =>
  match (w.lock cluster).perform faults program with
  | (.ok x, lock) => .ok x (w.setLease cluster lock.lease)
  | (.error e, lock) => .error e (w.setLease cluster lock.lease)

def getClusterFor (fault : Option Err) (bk : PerconaValkeyBackup) (purpose : Str) :
    Action BackupWorld PerconaValkeyCluster := do
  let context := "get cluster " ++ quote bk.spec.clusterName ++ purpose
  let got ← (Action.read fault fun w => w.clusters bk.spec.clusterName).mapErr (Err.wrap context)
  match got with
  | some cluster => pure cluster
  | none => throw (errNotFound.wrap context)

theorem getClusterFor_reads {fault : Option Err} {bk : PerconaValkeyBackup} {purpose : Str}
    {P E : BackupWorld → Prop} (h : ∀ w, P w → E w) :
    (getClusterFor fault bk purpose).Triple P
      (fun cluster w => P w ∧ w.clusters bk.spec.clusterName = some cluster) E := by
  refine .bind (.mapErr (.read fun w hw _ => h w hw)) fun got => ?_
  cases got with
  | none => exact .throw fun w hw => h w hw.1
  | some cluster => exact .pure fun w hw => ⟨hw.1, hw.2.symm⟩

section Pass

variable (env : BackupInputs)

/-! ## Status and lock -/

/-- Read the object again and write the status onto it. -/
def writeStatus (bk : PerconaValkeyBackup) : Action BackupWorld Unit := do
  let name := bk.ns ++ '/' :: bk.name
  let got ← (Action.read env.statusGet fun w => w.backups bk.name).mapErr
    (Err.wrap ("status writeback re-fetch " ++ name))
  match got with
  | none => throw (errNotFound.wrap ("status writeback re-fetch " ++ name))
  | some fresh =>
    (Action.write env.statusWrite
      (BackupWorld.setBackup bk.name (some { fresh with status := bk.status }))).mapErr
      (Err.wrap ("status patch " ++ name))

def acquireLock (bk : PerconaValkeyBackup) : Action BackupWorld Bool :=
  onLock env.acquire bk.spec.clusterName (acquireClusterLease bk)

def renewLock (bk : PerconaValkeyBackup) : Action BackupWorld Unit :=
  onLock env.renew bk.spec.clusterName (renewClusterLease bk)

def releaseLock (faults : LeaseReq → Option Fault) (bk : PerconaValkeyBackup) :
    Action BackupWorld Unit :=
  onLock faults bk.spec.clusterName (releaseClusterLease bk)

def terminalFail (bk : PerconaValkeyBackup) (reason msg : Str) : Action BackupWorld Unit := do
  let now ← Action.read none fun w => w.clock
  releaseLock env.release bk
  writeStatus env (failBackup now bk reason msg)

/-! ## The backup Job -/

def getBackupJob (fault : Option Err) (bk : PerconaValkeyBackup) :
    Action BackupWorld (Option Job) :=
  (Action.read fault fun w => w.jobs (backupJobName bk.name)).mapErr
    (Err.wrap ("get backup job " ++ quote (backupJobName bk.name)))

/-- The backup is returned with the time of its start. -/
def createBackupJob (jobGet : Option Err) (bk : PerconaValkeyBackup) (rs : ResolvedStorage) :
    Action BackupWorld PerconaValkeyBackup := do
  let existing ← getBackupJob jobGet bk
  match existing with
  | some _ => pure bk
  | none =>
    let cluster ← getClusterFor env.jobSpecGet bk " for job spec"
    (Action.write env.jobCreate
      (.spawn (backupJobName bk.name) bk.uid (desiredBackupJob bk cluster rs))).mapErr
      (Err.wrap ("create backup job " ++ quote (backupJobName bk.name)))
    let now ← Action.read none fun w => w.clock
    if bk.status.start = none then
      pure { bk with status := { bk.status with start := some now } }
    else pure bk

/-- The backup with the verdict on its Job, and whether that is final. -/
def watchJob (bk : PerconaValkeyBackup) (rs : ResolvedStorage) :
    Action BackupWorld (PerconaValkeyBackup × Bool) := do
  let got ← getBackupJob env.jobGet bk
  let now ← Action.read none fun w => w.clock
  match got with
  | none =>
    -- the Job has vanished; the lock is not asked for
    let bk ← createBackupJob env env.jobGetAgain bk rs
    pure (bk, false)
  | some job =>
    if jobConditionTrue job .complete then pure (handleJobComplete now env.manifest bk, true)
    else if jobEvicted job then
      pure (failBackup now bk reasonJobEvicted
        "backup Job evicted (node pressure/preemption/drain)", true)
    else if jobConditionTrue job .failed then
      pure (failBackup now bk (jobFailureReason job).1 (jobFailureReason job).2, true)
    else
      renewLock env bk
      pure (setState bk .running (describe reasonJobRunning "backup Job in progress"), false)

/-! ## Phases -/

def reconcileStart (bk : PerconaValkeyBackup) (rs : ResolvedStorage) :
    Action BackupWorld Unit := do
  let got ← Action.read none fun w =>
    match env.snapshotGet with
    | some e => .error e
    | none => .ok (w.clusters bk.spec.clusterName)
  match clusterSnapshotReady bk.spec.clusterName got with
  | .error e => throw e
  | .ok (some reason) =>
    writeStatus env (setState bk .starting (describe reasonClusterNotReady reason))
  | .ok none =>
    let acquired ← acquireLock env bk
    if !acquired then
      writeStatus env (setState bk .starting
        (describe reasonWaitingForLock "waiting for per-cluster backup lock"))
    else
      (createBackupJob env env.jobGet bk rs).handle
        (fun bk => writeStatus env
          (setState bk .running (describe reasonJobRunning "backup Job created")))
        fun e =>
          (releaseLock env.releaseFirst bk).handle
            (fun _ => terminalFail env bk reasonJobCreateError e.msg)
            fun _ => terminalFail env bk reasonJobCreateError e.msg

def reconcileRunning (bk : PerconaValkeyBackup) (rs : ResolvedStorage) :
    Action BackupWorld Unit := do
  let (bk, done) ← watchJob env bk rs
  if done then releaseLock env.release bk
  writeStatus env bk

/-- What the reads behind the storage of a backup give in a world. -/
def storageOf (w : BackupWorld) (bk : PerconaValkeyBackup) : Except Err ResolvedStorage :=
  resolveDefaults
    (match env.defaultsGet with
      | some e => .error e
      | none => .ok (w.clusters bk.spec.clusterName))
    (fun name =>
      match env.secretGet with
      | some e => .error e
      | none => .ok ((w.secrets name).map fun data => data.map Prod.fst))
    bk

def advance (bk : PerconaValkeyBackup) : Action BackupWorld Unit := do
  let resolved ← Action.read none fun w => storageOf env w bk
  match resolved with
  | .error e => terminalFail env bk reasonStorageError e.msg
  | .ok rs =>
    let bk := hydrateStorage bk rs
    match bk.status.state with
    | .running => reconcileRunning env bk rs
    | _ => reconcileStart env bk rs

/-! ## Deletion -/

def ensureFinalizer (bk : PerconaValkeyBackup) : Action BackupWorld PerconaValkeyBackup :=
  if finalizerDeleteBackup ∈ bk.finalizers then pure bk
  else do
    let added := { bk with finalizers := bk.finalizers ++ [finalizerDeleteBackup] }
    (Action.write env.finalizerPatch (BackupWorld.setBackup bk.name (some added))).mapErr
      (Err.wrap "add backup finalizer")
    pure added

/-- An object that is being deleted goes away with its last finalizer. -/
def removeFinalizer (bk : PerconaValkeyBackup) : Action BackupWorld Unit :=
  let left := bk.finalizers.filter (· ≠ finalizerDeleteBackup)
  (Action.write env.finalizerRemove (BackupWorld.setBackup bk.name
    (if left = [] then none else some { bk with finalizers := left }))).mapErr
    (Err.wrap "remove backup finalizer")

def resolveStorageForCleanup (bk : PerconaValkeyBackup) : Action BackupWorld ResolvedStorage := do
  let cluster ← getClusterFor env.cleanupGet bk []
  match resolveStorage cluster bk with
  | .ok rs => pure rs
  | .error e => throw e

def createCleanupJob (bk : PerconaValkeyBackup) (rs : ResolvedStorage) :
    Action BackupWorld Unit := do
  let _ ← getClusterFor env.cleanupSpecGet bk " for cleanup job"
  (Action.write env.cleanupJobCreate
    (.spawn (cleanupJobName bk.name) bk.uid (desiredCleanupJob bk rs))).mapErr
    (Err.wrap ("create cleanup job " ++ quote (cleanupJobName bk.name)))

def driveCleanup (bk : PerconaValkeyBackup) (rs : ResolvedStorage) : Action BackupWorld Unit := do
  let got ← (Action.read env.cleanupJobGet fun w => w.jobs (cleanupJobName bk.name)).mapErr
    (Err.wrap ("get cleanup job " ++ quote (cleanupJobName bk.name)))
  match got with
  | none => createCleanupJob env bk rs
  | some job =>
    if jobConditionTrue job .complete then removeFinalizer env bk
    else if jobConditionTrue job .failed then
      (Action.write env.cleanupJobDelete (BackupWorld.setJob (cleanupJobName bk.name) none)).mapErr
        (Err.wrap "delete failed cleanup job")
    else pure ()

def handleDeletion (bk : PerconaValkeyBackup) : Action BackupWorld Unit :=
  if finalizerDeleteBackup ∉ bk.finalizers then pure ()
  else do
    releaseLock env.release bk
    -- without the storage the finalizer stays and an event is all there is
    (resolveStorageForCleanup env bk).handle (driveCleanup env bk) fun _ => pure ()

def reconcile (name : Str) : Action BackupWorld Unit := do
  let got ← Action.read env.bkGet fun w => w.backups name
  match got with
  | none => pure ()
  | some bk =>
    if bk.deleting then handleDeletion env bk
    else do
      let bk ← ensureFinalizer env bk
      if isTerminal bk then pure () else advance env bk

end Pass

/-! ## What the calls of a pass leave

Stated for any condition on the world, so that an invariant of the passes is shown from
what it says about the writes alone. -/

theorem onLock_triple {α : Type} {faults : LeaseReq → Option Fault} {cluster : Str}
    {program : LeaseCalls (Except Err α)} {P E : BackupWorld → Prop} {Q : α → BackupWorld → Prop}
    (h : ∀ w, P w →
      (∀ x, ((w.lock cluster).perform faults program).1 = .ok x →
        Q x (w.setLease cluster ((w.lock cluster).perform faults program).2.lease)) ∧
      E (w.setLease cluster ((w.lock cluster).perform faults program).2.lease)) :
    (onLock faults cluster program).Triple P Q E := by
  intro w hw
  obtain ⟨hok, herror⟩ := h w hw
  unfold onLock
  generalize (w.lock cluster).perform faults program = r at hok herror
  obtain ⟨x | e, lock⟩ := r
  · exact herror
  · exact hok _ rfl

section Rules

variable {env : BackupInputs} {bk : PerconaValkeyBackup} {P E : BackupWorld → Prop}
  {Q : PerconaValkeyBackup → BackupWorld → Prop}

theorem writeStatus_triple (hstay : ∀ w, P w → E w)
    (hset : ∀ w fresh, P w → w.backups bk.name = some fresh →
      E (w.setBackup bk.name (some { fresh with status := bk.status }))) :
    (writeStatus env bk).Triple P (fun _ => E) E := by
  refine .bind (.mapErr (.read fun w hw _ => hstay w hw)) fun got => ?_
  cases got with
  | none => exact .throw fun w hw => hstay w hw.1
  | some fresh =>
    have hwrite : ∀ w, P w ∧ some fresh = w.backups bk.name →
        E (w.setBackup bk.name (some { fresh with status := bk.status })) :=
      fun w hw => hset w fresh hw.1 hw.2.symm
    exact .mapErr (.write hwrite (fun w hw => hstay w hw.1) fun _ w _ hw => hwrite w hw)

/-- The Job is found, or created if there is none; what a creation leaves is `Made`. -/
theorem createBackupJob_triple {rs : ResolvedStorage} {jobGet : Option Err}
    {Made : BackupWorld → Prop} (hread : jobGet ≠ none → ∀ w, P w → E w)
    (hfound : ∀ w, P w → Q bk w)
    (habsent : ∀ w, P w → w.jobs (backupJobName bk.name) = none → E w)
    (hspawn : ∀ w cluster, P w → w.jobs (backupJobName bk.name) = none →
      w.clusters bk.spec.clusterName = some cluster →
      Made (w.spawn (backupJobName bk.name) bk.uid (desiredBackupJob bk cluster rs)))
    (hlost : ∀ e, env.jobCreate = some (.lost e) → ∀ w, Made w → E w)
    (hmade : ∀ w start, Made w → Q { bk with status := { bk.status with start := start } } w) :
    (createBackupJob env jobGet bk rs).Triple P Q E := by
  refine .bind (.mapErr (.read fun w hw hfault => hread hfault w hw)) fun existing => ?_
  cases existing with
  | some job => exact .pure fun w hw => hfound w hw.1
  | none =>
    refine .bind (getClusterFor_reads fun w hw => habsent w hw.1 hw.2.symm) fun cluster => ?_
    refine .bind (.mapErr (.write (Q := fun _ => Made)
      (fun w hw => hspawn w cluster hw.1.1 hw.1.2.symm hw.2)
      (fun w hw => habsent w hw.1.1 hw.1.2.symm)
      fun e w he hw => hlost e he _ (hspawn w cluster hw.1.1 hw.1.2.symm hw.2))) fun _ => ?_
    refine .bind (.read fun w hw h => absurd rfl h) fun now => ?_
    split
    · exact .pure fun w hw => hmade w (some now) hw.1
    · exact .pure fun w hw => hmade w bk.status.start hw.1

theorem ensureFinalizer_triple
    (hthere : finalizerDeleteBackup ∈ bk.finalizers → ∀ w, P w → Q bk w)
    (hstay : ∀ w, P w → E w)
    (hadded : ∀ w added, added = { bk with finalizers := bk.finalizers ++ [finalizerDeleteBackup] } →
      P w → Q added (w.setBackup bk.name (some added)) ∧ E (w.setBackup bk.name (some added))) :
    (ensureFinalizer env bk).Triple P Q E := by
  unfold ensureFinalizer
  split
  · rename_i hfin
    exact .pure (hthere hfin)
  · exact .bind (.mapErr (.write (Q := fun _ => Q _) (fun w hw => (hadded w _ rfl hw).1) hstay
      fun _ w _ hw => (hadded w _ rfl hw).2)) fun _ => .pure fun _ hw => hw

end Rules

/-! ## Runs -/

inductive BackupEvent where
  | create (name : Str) (spec : BackupSpec)
  | requestDeletion (name : Str)
  | editCluster (name : Str) (cluster : Option PerconaValkeyCluster)
  | editSecret (name : Str) (data : Option (List (Str × Str)))
  | tick (clock : Int)
  /-- an unfinished Job reports its conditions -/
  | jobReport (name : Str) (conditions : List JobCondition) (failedPods : Int)
  | jobVanish (name : Str)
  | pass (name : Str) (env : BackupInputs)

def BackupWorld.step (w : BackupWorld) : BackupEvent → BackupWorld
  | .create name spec =>
    match w.backups name with
    | some _ => w
    | none =>
      { w.setBackup name (some { name := name, ns := w.ns, uid := w.nextUid, spec := spec }) with
        nextUid := w.nextUid + 1 }
  | .requestDeletion name =>
    match w.backups name with
    | none => w
    | some bk =>
      w.setBackup name (if bk.finalizers = [] then none else some { bk with deleting := true })
  | .editCluster name cluster => { w with clusters := Function.update w.clusters name cluster }
  | .editSecret name data => { w with secrets := Function.update w.secrets name data }
  | .tick clock => { w with clock := max w.clock clock }
  | .jobReport name conditions failedPods =>
    match w.jobs name with
    | none => w
    | some job =>
      if job.active then
        w.setJob name (some { job with conditions := conditions, failedPods := failedPods })
      else w
  | .jobVanish name => w.setJob name none
  | .pass name env => (reconcile env name).after w

def BackupWorld.play (w : BackupWorld) (events : List BackupEvent) : BackupWorld :=
  events.foldl BackupWorld.step w

/-! A namespace with a cluster that is ready for backups. -/

def bareNamespace : BackupWorld where
  ns := "db"
  clock := 0
  nextUid := 1
  clusters := fun _ => none
  secrets := fun _ => none
  backups := fun _ => none
  jobs := fun _ => none
  leases := fun _ => .absent

def bucketStorage (bucket : Str) : BackupStorageSpec where
  type := .s3
  s3 := some { bucket := bucket, credentialsSecret := "creds" }

def bucketCluster (bucket : Str) : PerconaValkeyCluster where
  name := "prod"
  spec := { storages := AList.insert "main" (bucketStorage bucket) ∅ }
  status := { state := .ready }

def mainBackup : BackupSpec where
  clusterName := "prod"
  storageName := "main"

/-- The cluster and its credentials are there. -/
def furnish (bucket : Str) : List BackupEvent :=
  [.editCluster "prod" (some (bucketCluster bucket)),
    .editSecret "creds" (some ((requiredCredKeys .s3).map (·, "key")))]

end ValkeyOperator.Backup

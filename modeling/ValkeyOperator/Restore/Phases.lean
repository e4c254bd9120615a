import ValkeyOperator.Lib.Inserts
import ValkeyOperator.Lib.Triple
import ValkeyOperator.Cluster.NodeSpec
import ValkeyOperator.Backup.Snapshot

/-! The phase machine of a restore (`pkg/controller/perconavalkeyrestore`).

A restore provisions or adopts its target cluster, stamps the restore markers on
it, waits until the cluster has formed and is Ready, and is then over: a terminal
restore is never touched again, and no phase takes a marker away. Resolving the
source, reading its manifest and checking the two against each other are given by
the environment of a pass. -/

namespace ValkeyOperator.Restore
open Text Valkey Api
open Cluster

variable {phase : RestorePhase} {w : RestoreWorld}

/-! ## The restore object -/

inductive RestoreStrategy where
  | newCluster
  | inPlace
deriving DecidableEq

inductive RestoreState where
  | new
  | starting
  | running
  | succeeded
  | failed
  | error
deriving DecidableEq

/-- An inline source: what the status of a backup says of its place. -/
structure BackupSource where
  destination : Str := []
  storageName : Str := []
  s3 : Option StorageCoordinates := none
  gcs : Option StorageCoordinates := none
  azure : Option StorageCoordinates := none
deriving DecidableEq

structure RestoreSpec where
  clusterName : Str
  backupName : Str := []
  backupSource : Option BackupSource := none
  strategy : RestoreStrategy := .newCluster
deriving DecidableEq

structure RestoreStatus where
  state : RestoreState := .new
  stateDescription : Str := []
  /-- whether the completion time is recorded -/
  completed : Bool := false
deriving DecidableEq

structure PerconaValkeyRestore where
  name : Str
  ns : Str := []
  annotations : StrMap := ∅
  spec : RestoreSpec
  status : RestoreStatus := {}
deriving DecidableEq

inductive RestorePhase where
  | pending
  | provisioning
  | seeding
  | forming
  | validating
  | succeeded
  | failed
  /-- an annotation value this build does not understand -/
  | unknown (text : Str)
deriving DecidableEq

def RestorePhase.text : RestorePhase → Str
  | .pending => "Pending"
  | .provisioning => "Provisioning"
  | .seeding => "Seeding"
  | .forming => "Forming"
  | .validating => "Validating"
  | .succeeded => "Succeeded"
  | .failed => "Failed"
  | .unknown text => text

def RestorePhase.ofText (s : Str) : RestorePhase :=
  match [.pending, .provisioning, .seeding, .forming, .validating, .succeeded, .failed].find?
      fun p => RestorePhase.text p = s with
  | some p => p
  | none => .unknown s

def annPhase : Str := "valkey.percona.com/restore-phase"
def annTargetCluster : Str := "valkey.percona.com/restore-target-cluster"
def annRestoredSlots : Str := "valkey.percona.com/restore-restored-slots"
def annSeedAppendonly : Str := "valkey.percona.com/restore-seed-appendonly"

def seedAppendonlyNo : Str := "no"

def phaseToState : RestorePhase → RestoreState
  | .pending | .provisioning | .seeding | .forming => .starting
  | .validating => .running
  | .succeeded => .succeeded
  | .failed => .failed
  | .unknown _ => .error

/-- The phase the annotation records; a fresh restore is pending. -/
def currentPhase (rst : PerconaValkeyRestore) : RestorePhase :=
  match rst.annotations.lookup annPhase with
  | some v => if v ≠ [] then .ofText v else .pending
  | none => .pending

def isTerminal (rst : PerconaValkeyRestore) : Bool :=
  currentPhase rst = .succeeded ∨ currentPhase rst = .failed

def targetClusterName (rst : PerconaValkeyRestore) : Str := rst.spec.clusterName

/-! ## What a pass works on -/

/-- The restore, the cluster of the target's name if there is one, the roll hash
of its rendered configuration, and its nodes. -/
structure RestoreWorld where
  restore : PerconaValkeyRestore
  cluster : Option PerconaValkeyCluster := none
  configHash : Str := []
  nodes : List ValkeyNode := []

structure ResolvedSource where
  cluster : Str
  backup : Str
  storageName : Str := []

/-- What a pass meets: the source with its manifest and the verdict on the two,
the cluster template of the restore, and the errors of the API server. -/
structure RestoreEnv where
  source : Except Err ResolvedSource
  manifest : Except Err Backup.Manifest
  verdict : Except Err Str
  template : Option ClusterSpec := none
  getCluster : Option Err := none
  /-- a cluster that appears between the read and the create -/
  appeared : Option PerconaValkeyCluster := none
  refetch : Option Err := none
  createCluster : Option Fault := none
  patchCluster : Option Fault := none
  patchRestore : List (Str × Str) → Option Fault := fun _ => none
  writeStatus : RestorePhase → Option Fault := fun _ => none

inductive Requeue where
  | none
  | now
  | later
deriving DecidableEq

def putAll (kvs : List (Str × Str)) (annotations : StrMap) : StrMap :=
  kvs.foldl (fun m kv => m.insert kv.1 kv.2) annotations

def objectKey (ns name : Str) : Str := ns ++ '/' :: name

def failOn (e : Option Err) : Action RestoreWorld Unit :=
  match e with
  | some e => throw e
  | none => pure ()

/-! ## Recording the phase -/

def setPhaseAnnotation (env : RestoreEnv) (kvs : List (Str × Str)) : Action RestoreWorld Unit := do
  let rst := (← get).restore
  (Action.write (env.patchRestore kvs) fun w =>
    { w with restore := { w.restore with annotations := putAll kvs w.restore.annotations } }).mapErr
    (Err.wrap ("patch restore annotations " ++ objectKey rst.ns rst.name))

def writeStatus (env : RestoreEnv) (phase : RestorePhase) (desc : Str) :
    Action RestoreWorld Unit :=
  Action.write (env.writeStatus phase) fun w =>
    { w with restore := { w.restore with status :=
      { state := phaseToState phase, stateDescription := desc
        completed := w.restore.status.completed || phase = .succeeded } } }

def advance (env : RestoreEnv) (phase : RestorePhase) (desc : Str) : Action RestoreWorld Unit := do
  setPhaseAnnotation env [(annPhase, phase.text)]
  writeStatus env phase desc

/-- End in the failed phase; the pass itself does not fail. -/
def fail (env : RestoreEnv) (reason : Str) (cause : Err) : Action RestoreWorld Requeue := do
  (advance env .failed (reason ++ ": " ++ cause.msg)).mapErr
    (Err.wrap ("record restore failure (" ++ reason ++ ")"))
  pure .none

def proceed (env : RestoreEnv) (phase : RestorePhase) (desc : Str) (requeue : Requeue) :
    Action RestoreWorld Requeue := do
  advance env phase desc
  pure requeue

/-! ## The target cluster -/

def restoreMarkerValue (rst : PerconaValkeyRestore) : Str :=
  if rst.spec.backupName ≠ [] then rst.name ++ '/' :: rst.spec.backupName
  else rst.name ++ "/backupSource"

def restoreMarkerAnnotations (rst : PerconaValkeyRestore) (src : ResolvedSource) :
    List (Str × Str) :=
  [(annRestoreMarker, restoreMarkerValue rst), (annSeedAppendonly, seedAppendonlyNo)] ++
    (if src.storageName ≠ [] then [(annRestoreStorage, src.storageName)] else []) ++
    (if src.cluster ≠ [] then [(annSourceCluster, src.cluster)] else []) ++
    (if src.backup ≠ [] then [(annSourceBackup, src.backup)] else [])

def annotationsContain (have_ : StrMap) (want : List (Str × Str)) : Bool :=
  want.all fun kv => have_.get kv.1 = kv.2

/-- Patch the markers onto an existing cluster unless they are all there. -/
def stampRestoreMarkers (env : RestoreEnv) (cluster : PerconaValkeyCluster)
    (src : ResolvedSource) : Action RestoreWorld Unit := do
  let w ← get
  let want := restoreMarkerAnnotations w.restore src
  if annotationsContain cluster.annotations want then pure ()
  else
    (Action.write env.patchCluster fun w =>
      { w with cluster := some { cluster with annotations := putAll want cluster.annotations } }).mapErr
      (Err.wrap ("stamp restore markers on cluster " ++ objectKey cluster.ns cluster.name))

def createTargetCluster (env : RestoreEnv) (src : ResolvedSource) (man : Backup.Manifest) :
    Action RestoreWorld Unit := do
  let w ← get
  let spec := { env.template.getD {} with shards := Int32.ofNat man.shards.length }
  let cluster : PerconaValkeyCluster :=
    { name := targetClusterName w.restore, ns := w.restore.ns, spec := spec
      annotations := putAll (restoreMarkerAnnotations w.restore src) ∅ }
  match env.appeared with
  | some fresh =>
    (failOn env.refetch).mapErr (Err.wrap "re-fetch raced target cluster")
    set { w with cluster := some fresh }
    stampRestoreMarkers env fresh src
  | none =>
    (Action.write env.createCluster fun w => { w with cluster := some cluster }).mapErr
      (Err.wrap ("create target cluster " ++ objectKey cluster.ns cluster.name))

/-- The target cluster as it is read, if it is there. -/
def getTargetCluster (env : RestoreEnv) : Action RestoreWorld (Option PerconaValkeyCluster) := do
  let w ← get
  (failOn env.getCluster).mapErr (Err.wrap
    ("get target cluster " ++ objectKey w.restore.ns (targetClusterName w.restore)))
  pure w.cluster

/-- Adopt the cluster of the target's name whatever its origin, or create it. -/
def provisionTargetCluster (env : RestoreEnv) (src : ResolvedSource) (man : Backup.Manifest) :
    Action RestoreWorld Unit := do
  match ← getTargetCluster env with
  | some cluster => stampRestoreMarkers env cluster src
  | none =>
    let rst := (← get).restore
    if rst.spec.strategy = .inPlace then
      throw ⟨"InPlace restore target cluster " ++
        objectKey rst.ns (targetClusterName rst) ++ " does not exist", false⟩
    else createTargetCluster env src man

def seedOverrideApplied (cluster : PerconaValkeyCluster) : Bool :=
  cluster.annotations.get annSeedAppendonly = seedAppendonlyNo

def restoreMarkerApplied (cluster : PerconaValkeyCluster) : Bool :=
  (cluster.annotations.lookup annRestoreMarker).isSome

def clusterConditionTrue (cluster : PerconaValkeyCluster) (type : ClusterConditionType) : Bool :=
  match cluster.status.conditions.find? fun c => c.1 = type with
  | some c => c.2
  | none => false

def clusterFormed (cluster : PerconaValkeyCluster) : Bool :=
  clusterConditionTrue cluster .clusterFormed

def clusterSlotsComplete (cluster : PerconaValkeyCluster) : Bool :=
  clusterConditionTrue cluster .slotsAssigned

def clusterReady (cluster : PerconaValkeyCluster) : Bool :=
  cluster.status.state = .ready ∨ clusterConditionTrue cluster .ready

/-! ## The phases -/

/-- Run a step; its error ends the restore for the given reason. -/
def orFail {α : Type} (env : RestoreEnv) (reason : String) (a : Action RestoreWorld α)
    (next : α → Action RestoreWorld Requeue) : Action RestoreWorld Requeue :=
  a.handle next (fail env reason.toList)

def lift {α : Type} (r : Except Err α) : Action RestoreWorld α :=
  match r with
  | .ok x => pure x
  | .error e => throw e

def reconcilePending (env : RestoreEnv) : Action RestoreWorld Requeue :=
  orFail env "SourceResolveFailed" (lift env.source) fun _ =>
  orFail env "ManifestUnavailable" (lift env.manifest) fun _ =>
  orFail env "IncompatibleSource" (lift env.verdict) fun detail => do
    let rst := (← get).restore
    setPhaseAnnotation env [(annTargetCluster, targetClusterName rst), (annRestoredSlots, detail)]
    proceed env .provisioning "source validated; provisioning target cluster" .now

def reconcileProvisioning (env : RestoreEnv) : Action RestoreWorld Requeue :=
  orFail env "SourceResolveFailed" (lift env.source) fun src =>
  orFail env "ManifestUnavailable" (lift env.manifest) fun man =>
  orFail env "ProvisionFailed" (provisionTargetCluster env src man) fun _ =>
    proceed env .seeding "target cluster provisioned; seeding RDB per shard" .now

/-- Markers that are missing are stamped again. -/
def reconcileSeeding (env : RestoreEnv) : Action RestoreWorld Requeue :=
  orFail env "TargetMissing" (getTargetCluster env) fun found =>
    match found with
    | none => pure .later
    | some cluster =>
      if !seedOverrideApplied cluster || !restoreMarkerApplied cluster then
        orFail env "SourceResolveFailed" (lift env.source) fun src =>
        orFail env "ManifestUnavailable" (lift env.manifest) fun _ =>
        orFail env "SeedMarkerFailed" (stampRestoreMarkers env cluster src) fun _ => pure .later
      else
        proceed env .forming "RDB seeded (appendonly no); waiting for topology re-form" .now

def reconcileForming (env : RestoreEnv) : Action RestoreWorld Requeue :=
  orFail env "TargetMissing" (getTargetCluster env) fun found =>
    match found with
    | none => pure .later
    | some cluster =>
      if !clusterFormed cluster then pure .later
      else
        proceed env .validating "cluster re-formed; validating 16384-slot coverage" .now

def reconcileValidating (env : RestoreEnv) : Action RestoreWorld Requeue :=
  orFail env "TargetMissing" (getTargetCluster env) fun found =>
    match found with
    | none => pure .later
    | some cluster =>
      if cluster.status.state = .failed then
        fail env "ClusterFailed" ⟨"target cluster " ++ cluster.name ++
          " reported Failed during re-form (" ++ cluster.status.reason ++
          ") — left for inspection", false⟩
      else if !clusterSlotsComplete cluster || !clusterReady cluster then pure .later
      else
        proceed env .succeeded "restore complete: all 16384 slots covered, cluster Ready" .none

def errUnknownPhase (phase : RestorePhase) : Err :=
  ⟨"restore is in an unknown phase " ++ quote phase.text, false⟩

/-- One pass over the restore. -/
def reconcile (env : RestoreEnv) : Action RestoreWorld Requeue := do
  let rst := (← get).restore
  if isTerminal rst then pure .none
  else
    match currentPhase rst with
    | .pending => reconcilePending env
    | .provisioning => reconcileProvisioning env
    | .seeding => reconcileSeeding env
    | .forming => reconcileForming env
    | .validating => reconcileValidating env
    | phase => fail env "RestoreFailed" (errUnknownPhase phase)

/-- A terminal restore is left alone, and so is everything else. -/
theorem reconcile_terminal (env : RestoreEnv) (h : isTerminal w.restore = true) :
    (reconcile env).after w = w := by
  have hpass : reconcile env w = .ok .none w := by
    change (if isTerminal w.restore = true then pure Requeue.none else _ : Action _ _) w = _
    rw [if_pos h]
    rfl
  unfold Action.after
  rw [hpass]

/-- Any other pass is the one of its phase. -/
theorem reconcile_live (env : RestoreEnv) (h : ¬ isTerminal w.restore = true) :
    (reconcile env).after w =
      (match currentPhase w.restore with
        | .pending => reconcilePending env
        | .provisioning => reconcileProvisioning env
        | .seeding => reconcileSeeding env
        | .forming => reconcileForming env
        | .validating => reconcileValidating env
        | phase => fail env "RestoreFailed" (errUnknownPhase phase)).after w := by
  unfold reconcile
  rw [Action.after_get_bind]
  dsimp only
  rw [if_neg h]

/-! ## The marker of a restore that has been seeded -/

/-- The target cluster is there and carries the restored-from marker. -/
def Marked (w : RestoreWorld) : Prop :=
  ∃ cluster, w.cluster = some cluster ∧ isRestoreTarget cluster = true

/-- The phases after the seeding. -/
def RestorePhase.Seeded : RestorePhase → Prop
  | .forming | .validating | .succeeded => True
  | _ => False

/-- Before the end of the seeding, or failed. -/
def Unseeded (w : RestoreWorld) : Prop := ¬ (currentPhase w.restore).Seeded

theorem keeps_failOn {P : RestoreWorld → Prop} (e : Option Err) :
    Action.Keeps P (failOn e) fun _ => True := by
  unfold failOn
  split
  · exact .throw _
  · exact .pure trivial

theorem keeps_lift {α : Type} {P : RestoreWorld → Prop} (r : Except Err α) :
    Action.Keeps P (lift r) fun _ => True := by
  unfold lift
  split
  · exact .pure trivial
  · exact .throw _

theorem keeps_getTargetCluster {P : RestoreWorld → Prop} (env : RestoreEnv) :
    Action.Keeps P (getTargetCluster env) fun _ => True := by
  unfold getTargetCluster
  exact Action.Keeps.get.bind fun w _ => (keeps_failOn _).mapErr.bind fun _ _ => .pure trivial

section Replaced

variable {P : RestoreWorld → Prop} (hcluster : ∀ w cluster, P w → P { w with cluster := cluster })
  (env : RestoreEnv)
include hcluster

theorem keeps_stampRestoreMarkers (cluster : PerconaValkeyCluster) (src : ResolvedSource) :
    Action.Keeps P (stampRestoreMarkers env cluster src) fun _ => True := by
  unfold stampRestoreMarkers
  refine Action.Keeps.get.bind fun w hw => ?_
  dsimp only
  split
  · exact .pure trivial
  · exact (Action.Keeps.write fun v hv => hcluster v _ hv).mapErr

theorem keeps_provisionTargetCluster (src : ResolvedSource) (man : Backup.Manifest) :
    Action.Keeps P (provisionTargetCluster env src man) fun _ => True := by
  unfold provisionTargetCluster
  refine (keeps_getTargetCluster env).bind fun found _ => ?_
  cases found with
  | some cluster => exact keeps_stampRestoreMarkers hcluster env cluster src
  | none =>
    refine Action.Keeps.get.bind fun w hw => ?_
    dsimp only
    split
    · exact .throw _
    · unfold createTargetCluster
      refine Action.Keeps.get.bind fun w hw => ?_
      dsimp only
      split
      · rename_i fresh _
        have hset : Action.Keeps P
            (set { w with cluster := some fresh } : Action RestoreWorld PUnit) fun _ => True :=
          .set (hcluster w _ hw)
        exact (keeps_failOn _).mapErr.bind fun _ _ =>
          hset.bind fun _ _ => keeps_stampRestoreMarkers hcluster env fresh src
      · exact (Action.Keeps.write fun v hv => hcluster v _ hv).mapErr

end Replaced

/-- Recording the phase leads from `P` to `E`, whether its two writes are made and answered or not. -/
def Enters (env : RestoreEnv) (phase : RestorePhase) (P E : RestoreWorld → Prop) : Prop :=
  ∀ desc, Action.Triple P (advance env phase desc) (fun _ => E) E

section Enters

variable {env : RestoreEnv} {P E : RestoreWorld → Prop}

theorem Enters.proceed (h : Enters env phase P E) (desc : Str) (requeue : Requeue) :
    Action.Triple P (proceed env phase desc requeue) (fun _ => E) E := by
  unfold Restore.proceed
  exact (h desc).bind fun _ => .pure fun _ hw => hw

variable (hfailed : Enters env .failed P E)
include hfailed

theorem Enters.fail (reason : Str) (cause : Err) :
    Action.Triple P (fail env reason cause) (fun _ => E) E := by
  unfold Restore.fail
  exact (hfailed _).mapErr.bind fun _ => .pure fun _ hw => hw

theorem Enters.orFail {α : Type} {a : Action RestoreWorld α} {Q : α → Prop}
    {next : α → Action RestoreWorld Requeue} {reason : String} (ha : Action.Keeps P a Q)
    (hnext : ∀ x, Action.Triple P (next x) (fun _ => E) E) :
    Action.Triple P (orFail env reason a next) (fun _ => E) E := by
  unfold Restore.orFail
  exact (Action.Triple.of_keeps ha).handle hnext fun e => hfailed.fail reason.toList e

theorem Enters.reconcilePending
    (htarget : ∀ name detail, Action.Triple P
      ( setPhaseAnnotation env [(annTargetCluster, name), (annRestoredSlots, detail)])
      (fun _ => P) E)
    (hproceed : Enters env .provisioning P E) :
    Action.Triple P (reconcilePending env) (fun _ => E) E := by
  unfold Restore.reconcilePending
  refine hfailed.orFail (keeps_lift _) fun _ => ?_
  refine hfailed.orFail (keeps_lift _) fun _ => ?_
  refine hfailed.orFail (keeps_lift _) fun detail => ?_
  have hget : Action.Triple P (get : Action RestoreWorld RestoreWorld) (fun _ => P) E :=
    fun _ hw => hw
  refine hget.bind fun w => (htarget _ detail).bind fun _ => ?_
  exact hproceed.proceed _ _

variable (hcluster : ∀ w cluster, P w → P { w with cluster := cluster })

include hcluster in
theorem Enters.reconcileProvisioning (hproceed : Enters env .seeding P E) :
    Action.Triple P (reconcileProvisioning env) (fun _ => E) E := by
  unfold Restore.reconcileProvisioning
  refine hfailed.orFail (keeps_lift _) fun src => ?_
  refine hfailed.orFail (keeps_lift _) fun man => ?_
  refine hfailed.orFail (keeps_provisionTargetCluster hcluster env src man) fun _ => ?_
  exact hproceed.proceed _ _

-- the later phases may wait
variable (hstay : ∀ w, P w → E w)
include hstay

include hcluster in
theorem Enters.reconcileSeeding (hproceed : Enters env .forming P E) :
    Action.Triple P (reconcileSeeding env) (fun _ => E) E := by
  unfold Restore.reconcileSeeding
  refine hfailed.orFail (keeps_getTargetCluster env) fun found => ?_
  split
  · exact .pure hstay
  · rename_i cluster
    split
    · refine hfailed.orFail (keeps_lift _) fun src => ?_
      refine hfailed.orFail (keeps_lift _) fun _ => ?_
      exact hfailed.orFail (keeps_stampRestoreMarkers hcluster env cluster src) fun _ => .pure hstay
    · exact hproceed.proceed _ _

theorem Enters.reconcileForming (hproceed : Enters env .validating P E) :
    Action.Triple P (reconcileForming env) (fun _ => E) E := by
  unfold Restore.reconcileForming
  refine hfailed.orFail (keeps_getTargetCluster env) fun found => ?_
  split
  · exact .pure hstay
  · split
    · exact .pure hstay
    · exact hproceed.proceed _ _

theorem Enters.reconcileValidating (hproceed : Enters env .succeeded P E) :
    Action.Triple P (reconcileValidating env) (fun _ => E) E := by
  unfold Restore.reconcileValidating
  refine hfailed.orFail (keeps_getTargetCluster env) fun found => ?_
  split
  · exact .pure hstay
  · split
    · exact hfailed.fail _ _
    · split
      · exact .pure hstay
      · exact hproceed.proceed _ _

end Enters

/-- A property of the world that no record on the restore object breaks, as long as
the recorded annotations satisfy `ok`. -/
structure Recordable (ok : List (Str × Str) → Prop) (P : RestoreWorld → Prop) : Prop where
  annotations : ∀ w kvs, ok kvs → P w → P { w with restore := { w.restore with
    annotations := putAll kvs w.restore.annotations } }
  status : ∀ w status, P w → P { w with restore := { w.restore with status := status } }

section Recordable

variable {ok : List (Str × Str) → Prop} {P : RestoreWorld → Prop} (h : Recordable ok P)
  (env : RestoreEnv)
include h

theorem keeps_setPhase {kvs : List (Str × Str)} (hok : ok kvs) :
    Action.Keeps P ( setPhaseAnnotation env kvs) fun _ => True := by
  unfold setPhaseAnnotation
  refine Action.Keeps.get.bind fun w hw => ?_
  exact (Action.Keeps.write fun v hv => h.annotations v kvs hok hv).mapErr

theorem keeps_writeStatus (phase : RestorePhase) (desc : Str) :
    Action.Keeps P (writeStatus env phase desc) fun _ => True := by
  unfold writeStatus
  exact .write fun w hw => h.status w _ hw

theorem keeps_advance (hok : ok [(annPhase, phase.text)]) (desc : Str) :
    Action.Keeps P (advance env phase desc) fun _ => True := by
  unfold advance
  exact (keeps_setPhase h env hok).bind fun _ _ => keeps_writeStatus h env phase desc

theorem enters_of_recordable (hok : ok [(annPhase, phase.text)]) : Enters env phase P P :=
  fun desc => .of_keeps (keeps_advance h env hok desc)

theorem keeps_proceed (hok : ok [(annPhase, phase.text)]) (desc : Str) (requeue : Requeue) :
    Action.Keeps P (proceed env phase desc requeue) fun _ => True :=
  ((enters_of_recordable h env hok).proceed desc requeue).keeps

theorem keeps_fail (hok : ok [(annPhase, RestorePhase.failed.text)]) (reason : Str) (cause : Err) :
    Action.Keeps P (fail env reason cause) fun _ => True :=
  (Enters.fail (enters_of_recordable h env hok) reason cause).keeps

theorem keeps_reconcilePending (hfailed : ok [(annPhase, RestorePhase.failed.text)])
    (htarget : ∀ name detail, ok [(annTargetCluster, name), (annRestoredSlots, detail)])
    (hproceed : ok [(annPhase, RestorePhase.provisioning.text)]) :
    Action.Keeps P (reconcilePending env) fun _ => True :=
  (Enters.reconcilePending (enters_of_recordable h env hfailed)
    (fun name detail => .of_keeps (keeps_setPhase h env (htarget name detail)))
    (enters_of_recordable h env hproceed)).keeps

theorem keeps_reconcileProvisioning
    (hcluster : ∀ w cluster, P w → P { w with cluster := cluster })
    (hfailed : ok [(annPhase, RestorePhase.failed.text)])
    (hproceed : ok [(annPhase, RestorePhase.seeding.text)]) :
    Action.Keeps P (reconcileProvisioning env) fun _ => True :=
  (Enters.reconcileProvisioning (enters_of_recordable h env hfailed) hcluster
    (enters_of_recordable h env hproceed)).keeps

theorem keeps_reconcileSeeding
    (hcluster : ∀ w cluster, P w → P { w with cluster := cluster })
    (hfailed : ok [(annPhase, RestorePhase.failed.text)])
    (hproceed : ok [(annPhase, RestorePhase.forming.text)]) :
    Action.Keeps P (reconcileSeeding env) fun _ => True :=
  (Enters.reconcileSeeding (enters_of_recordable h env hfailed) hcluster (fun _ hw => hw)
    (enters_of_recordable h env hproceed)).keeps

theorem keeps_reconcileForming (hfailed : ok [(annPhase, RestorePhase.failed.text)])
    (hproceed : ok [(annPhase, RestorePhase.validating.text)]) :
    Action.Keeps P (reconcileForming env) fun _ => True :=
  (Enters.reconcileForming (enters_of_recordable h env hfailed) (fun _ hw => hw)
    (enters_of_recordable h env hproceed)).keeps

theorem keeps_reconcileValidating (hfailed : ok [(annPhase, RestorePhase.failed.text)])
    (hproceed : ok [(annPhase, RestorePhase.succeeded.text)]) :
    Action.Keeps P (reconcileValidating env) fun _ => True :=
  (Enters.reconcileValidating (enters_of_recordable h env hfailed) (fun _ hw => hw)
    (enters_of_recordable h env hproceed)).keeps

end Recordable

theorem recordable_marked : Recordable (fun _ => True) Marked where
  annotations _ _ _ hw := hw
  status _ _ hw := hw

theorem lookup_putAll_of_not_mem {kvs : List (Str × Str)} {m : StrMap} {key : Str}
    (h : key ∉ kvs.map Prod.fst) : (putAll kvs m).lookup key = m.lookup key :=
  Inserts.lookup_of_not_mem fun _ hkv hkey => h (List.mem_map.mpr ⟨_, hkv, hkey⟩)

/-- The phase behind a record is a recorded one or the one before. -/
theorem currentPhase_recorded (rst : PerconaValkeyRestore) (kvs : List (Str × Str)) :
    currentPhase { rst with annotations := putAll kvs rst.annotations } = currentPhase rst ∨
      ∃ v, (annPhase, v) ∈ kvs ∧
        currentPhase { rst with annotations := putAll kvs rst.annotations } =
          if v ≠ [] then .ofText v else .pending := by
  unfold currentPhase
  dsimp only
  by_cases hmem : ∃ kv ∈ kvs, kv.1 = annPhase
  · obtain ⟨⟨_, v⟩, hkv, rfl, hlookup⟩ := Inserts.lookup_of_mem (m := rst.annotations) hmem
    exact .inr ⟨v, hkv, by rw [putAll, hlookup]⟩
  · rw [putAll, Inserts.lookup_of_not_mem fun kv hkv hkey => hmem ⟨kv, hkv, hkey⟩]
    exact .inl rfl

/-- Annotations that record only phases of a kind. -/
def RecordsOnly (Kind : RestorePhase → Prop) (kvs : List (Str × Str)) : Prop :=
  ∀ v, (annPhase, v) ∈ kvs → v ≠ [] ∧ Kind (.ofText v)

theorem recordable_phase (Kind : RestorePhase → Prop) :
    Recordable (RecordsOnly Kind) fun w => Kind (currentPhase w.restore) where
  annotations w kvs hok hw := by
    rcases currentPhase_recorded w.restore kvs with hsame | ⟨v, hv, hphase⟩
    · exact hsame.symm ▸ hw
    · obtain ⟨hne, hkind⟩ := hok v hv
      rw [if_pos hne] at hphase
      exact hphase.symm ▸ hkind
  status _ _ hw := hw

/-- Annotations that record no phase after the seeding. -/
def RecordsUnseeded (kvs : List (Str × Str)) : Prop :=
  ∀ v, (annPhase, v) ∈ kvs → ¬ (RestorePhase.ofText v).Seeded

theorem recordable_unseeded : Recordable RecordsUnseeded Unseeded where
  annotations w kvs hok hw := by
    rcases currentPhase_recorded w.restore kvs with hsame | ⟨v, hv, hphase⟩
    · exact fun hseeded => hw (hsame ▸ hseeded)
    · intro hseeded
      dsimp only at hseeded
      rw [hphase] at hseeded
      split at hseeded
      · exact hok v hv hseeded
      · exact hseeded
  status _ _ hw := hw

theorem phase_of_mem_record {v : Str} (hv : (annPhase, v) ∈ [(annPhase, phase.text)]) :
    v = phase.text :=
  (Prod.mk.inj (List.mem_singleton.mp hv)).2

theorem phase_not_mem_record (v name detail : Str) :
    (annPhase, v) ∉ [(annTargetCluster, name), (annRestoredSlots, detail)] := by
  intro hv
  rcases List.mem_cons.mp hv with htarget | hslots
  · exact absurd (Prod.mk.inj htarget).1 (by decide)
  · exact absurd (Prod.mk.inj (List.mem_singleton.mp hslots)).1 (by decide)

theorem recordsUnseeded_phase (htext : .ofText phase.text = phase) (h : ¬ phase.Seeded) :
    RecordsUnseeded [(annPhase, phase.text)] := by
  intro v hv
  rw [phase_of_mem_record hv, htext]
  exact h

theorem recordsUnseeded_target (name detail : Str) :
    RecordsUnseeded [(annTargetCluster, name), (annRestoredSlots, detail)] :=
  fun v hv => absurd hv (phase_not_mem_record v name detail)

theorem unseeded_fail (env : RestoreEnv) (reason : Str) (cause : Err) :
    Action.Keeps Unseeded (fail env reason cause) fun _ => True :=
  keeps_fail recordable_unseeded env (recordsUnseeded_phase (by decide) id) reason cause

theorem unseeded_orFail {α : Type} {env : RestoreEnv} {reason : String}
    {a : Action RestoreWorld α} {next : α → Action RestoreWorld Requeue}
    (ha : Action.Keeps Unseeded a fun _ => True)
    (hnext : ∀ x, Action.Keeps Unseeded (next x) fun _ => True) :
    Action.Keeps Unseeded (orFail env reason a next) fun _ => True :=
  ha.handle (fun x _ => hnext x) (unseeded_fail env reason.toList)

/-! ### Phase by phase -/

theorem unseeded_reconcilePending (env : RestoreEnv) :
    Action.Keeps Unseeded (reconcilePending env) fun _ => True :=
  keeps_reconcilePending recordable_unseeded env (recordsUnseeded_phase (by decide) id)
    recordsUnseeded_target (recordsUnseeded_phase (by decide) id)

theorem unseeded_reconcileProvisioning (env : RestoreEnv) :
    Action.Keeps Unseeded (reconcileProvisioning env) fun _ => True :=
  keeps_reconcileProvisioning recordable_unseeded env (fun _ _ hw => hw)
    (recordsUnseeded_phase (by decide) id) (recordsUnseeded_phase (by decide) id)

theorem getTargetCluster_cases (env : RestoreEnv) (w : RestoreWorld) :
    (env.getCluster.isSome = false ∧ getTargetCluster env w = .ok w.cluster w) ∨
      (env.getCluster.isSome = true ∧ ∃ e, getTargetCluster env w = .error e w) := by
  unfold getTargetCluster
  cases env.getCluster with
  | none => exact .inl ⟨rfl, rfl⟩
  | some e => exact .inr ⟨rfl, _, rfl⟩

/-- The seeding phase is left for the next one only over a marked cluster. -/
theorem reconcileSeeding_marked (env : RestoreEnv) (h : Unseeded w) :
    Unseeded ((reconcileSeeding env).after w) ∨ Marked ((reconcileSeeding env).after w) := by
  rw [reconcileSeeding, orFail]
  rcases getTargetCluster_cases env w with ⟨-, hget⟩ | ⟨-, e, hget⟩
  · rw [Action.after_handle_ok hget]
    cases hcluster : w.cluster with
    | none => exact .inl h
    | some cluster =>
      dsimp only
      split
      · -- the missing markers are stamped, and the phase stays
        left
        refine Action.Keeps.after (Q := fun _ => True) ?_ h
        refine unseeded_orFail (keeps_lift _) fun src => ?_
        refine unseeded_orFail (keeps_lift _) fun _ => ?_
        exact unseeded_orFail (keeps_stampRestoreMarkers (fun _ _ hw => hw) env cluster src) fun _ => .pure trivial
      · rename_i hmarkers
        have hmarked : isRestoreTarget cluster = true := by
          change restoreMarkerApplied cluster = true
          simp only [Bool.or_eq_true, Bool.not_eq_true', not_or, Bool.not_eq_false] at hmarkers
          exact hmarkers.2
        right
        exact Action.Keeps.after (keeps_proceed recordable_marked env trivial _ _)
          ⟨cluster, hcluster, hmarked⟩
  · rw [Action.after_handle_error hget]
    exact .inl ((unseeded_fail env _ e).after h)

/-- A restore past its seeding has its cluster marked. -/
def SeededMarked (w : RestoreWorld) : Prop := (currentPhase w.restore).Seeded → Marked w

theorem unseeded_of_phase (hphase : currentPhase w.restore = phase) (h : ¬ phase.Seeded) :
    Unseeded w := by
  unfold Unseeded
  rw [hphase]
  exact h

/-- Past the seeding a restore is forming, validating or over. -/
theorem unseeded_of_ne (hterminal : ¬ isTerminal w.restore = true)
    (hforming : currentPhase w.restore ≠ .forming)
    (hvalidating : currentPhase w.restore ≠ .validating) : Unseeded w := by
  intro hseeded
  unfold RestorePhase.Seeded at hseeded
  split at hseeded
  · rename_i hphase
    exact hforming hphase
  · rename_i hphase
    exact hvalidating hphase
  · rename_i hphase
    exact hterminal (decide_eq_true (.inl hphase))
  · exact hseeded

/-- A pass enters the phases after the seeding only over a marked cluster, and takes
no marker away in them. -/
theorem reconcile_seededMarked (env : RestoreEnv) (h : SeededMarked w) :
    SeededMarked ((reconcile env).after w) := by
  by_cases hterminal : isTerminal w.restore = true
  · rw [reconcile_terminal env hterminal]
    exact h
  · rw [reconcile_live env hterminal]
    split
    · rename_i hphase
      intro hseeded
      have hw : Unseeded w := unseeded_of_phase hphase id
      exact absurd hseeded ((unseeded_reconcilePending env).after hw)
    · rename_i hphase
      intro hseeded
      have hw : Unseeded w := unseeded_of_phase hphase id
      exact absurd hseeded ((unseeded_reconcileProvisioning env).after hw)
    · rename_i hphase
      intro hseeded
      rcases reconcileSeeding_marked env (unseeded_of_phase hphase id) with hafter | hafter
      · exact absurd hseeded hafter
      · exact hafter
    · rename_i hphase
      intro _
      have hw : Marked w := h (by rw [hphase]; trivial)
      exact (keeps_reconcileForming recordable_marked env trivial trivial).after hw
    · rename_i hphase
      intro _
      have hw : Marked w := h (by rw [hphase]; trivial)
      exact (keeps_reconcileValidating recordable_marked env trivial trivial).after hw
    · rename_i hforming hvalidating
      intro hseeded
      have hw : Unseeded w := unseeded_of_ne hterminal hforming hvalidating
      exact absurd hseeded ((unseeded_fail env _ _).after hw)

end ValkeyOperator.Restore

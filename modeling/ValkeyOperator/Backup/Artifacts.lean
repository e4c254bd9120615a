import ValkeyOperator.Backup.Cleanup
import ValkeyOperator.Backup.JobSettings
import ValkeyOperator.Backup.Passes

/-! Jobs and their object stores.

The controller and the Jobs run side by side: the pod of a backup Job uploads the objects of
its set, that of a cleanup Job makes one call after the other, and passes come in between.
Where a pod works is settled when it starts, by its environment: the Secret as it is then,
what the Job was rendered with, and what the user adds. Which backup an object was written
for, and where, is kept with it. -/

namespace ValkeyOperator.Backup
open Text ValkeyOperator.Stream Api
open Valkey

/-! ## Cleaning up, call by call -/

inductive StoreReq where
  | list (pfx : Str)
  | delete (key : Str)

def StoreResp : StoreReq → Type
  | .list _ => Except Err (List Str)
  | .delete _ => Except Err Unit

abbrev StoreCalls := Calls StoreReq StoreResp

def Backend.answer (b : Backend) (w : Bucket) : (r : StoreReq) → StoreResp r × Bucket
  | .list pfx => ((b.list pfx).outcome w, (b.list pfx).after w)
  | .delete key => ((b.delete key).outcome w, (b.delete key).after w)

theorem Backend.answer_objects {b : Backend} {objects : Objects}
    {script : List Reply} {r : StoreReq} {name : Str}
    (h : name ∈ (b.answer ⟨objects, script⟩ r).2.objects) : name ∈ objects := by
  cases r with
  | list pfx =>
    unfold Backend.answer Action.after Backend.list at h
    cases hreply : (Bucket.mk objects script).reply <;> simp only [hreply] at h <;> exact h
  | delete key =>
    unfold Backend.answer Action.after Backend.delete at h
    cases hreply : (Bucket.mk objects script).reply <;> simp only [hreply] at h
    · exact (AList.mem_erase.mp h).2
    · exact h
    · exact (AList.mem_erase.mp h).2

theorem Backend.listed_eq_nil {b : Backend} {w : Bucket} {pfx : Str}
    (h : (b.list pfx).outcome w = .ok []) : b.listed w pfx = [] := by
  unfold Action.outcome Backend.list at h
  cases hreply : w.reply with
  | ok =>
    simp only [hreply, Except.ok.injEq, List.map_eq_nil_iff] at h
    exact h
  | refused m => simp [hreply] at h
  | lost m => simp [hreply] at h

def callList (pfx : Str) : ExceptT Err StoreCalls (List Str) :=
  ExceptT.mk (Calls.ask (StoreReq.list pfx))

def callDelete (key : Str) : ExceptT Err StoreCalls Unit :=
  ExceptT.mk (Calls.ask (StoreReq.delete key))

/-- `runCleanup` as the sequence of its calls. -/
def cleanupCalls (cluster backup : Str) : ExceptT Err StoreCalls Unit := do
  (callDelete (manifestKey cluster backup)).adapt (Err.wrap "delete manifest")
  let setRoot := setPrefix cluster backup
  let keys ← (callList setRoot).adapt (Err.wrap ("list set " ++ quote setRoot))
  keys.forM fun key => (callDelete key).adapt (Err.wrap ("delete " ++ quote key))
  let remaining ← (callList setRoot).adapt
    (Err.wrap ("verify set " ++ quote setRoot ++ " empty"))
  if remaining.length ≠ 0 then throw (notFullyRemoved setRoot remaining)

/-- A program whose calls do what the action does. -/
def Performs {α : Type} (b : Backend) (program : ExceptT Err StoreCalls α)
    (a : Action Bucket α) : Prop :=
  ∀ w, program.run.run b.answer w = (a.outcome w, a.after w)

section Performs

variable {b : Backend} {α β : Type}

theorem Performs.bind {program : ExceptT Err StoreCalls α} {a : Action Bucket α}
    {next : α → ExceptT Err StoreCalls β} {f : α → Action Bucket β} (h : Performs b program a)
    (hnext : ∀ x, Performs b (next x) (f x)) : Performs b (program >>= next) (a >>= f) := by
  intro w
  have hw := h w
  change (program.run >>= ExceptT.bindCont next).run b.answer w =
    (Action.outcome (EStateM.bind a f) w, Action.after (EStateM.bind a f) w)
  rw [Calls.run_bind, hw]
  unfold Action.outcome Action.after EStateM.bind
  cases a w with
  | ok x w' => exact hnext x w'
  | error e w' => rfl

theorem Performs.adapt {program : ExceptT Err StoreCalls α} {a : Action Bucket α}
    (h : Performs b program a) (ctx : Err → Err) :
    Performs b (program.adapt ctx) (a.mapErr ctx) := by
  intro w
  have hw := h w
  change (program.run >>= fun r => pure (r.mapError ctx)).run b.answer w = _
  rw [Calls.run_bind, hw]
  unfold Action.outcome Action.after Action.mapErr
  cases a w with
  | ok x w' => rfl
  | error e w' => rfl

theorem Performs.forM {xs : List α} {next : α → ExceptT Err StoreCalls PUnit}
    {f : α → Action Bucket PUnit} (h : ∀ x, Performs b (next x) (f x)) :
    Performs b (xs.forM next) (xs.forM f) := by
  induction xs with
  | nil => exact fun w => rfl
  | cons x xs ih => exact (h x).bind fun _ => ih

/-- Answered one after the other, the calls are a run of `runCleanup`. -/
theorem cleanupCalls_performs (cluster backup : Str) :
    Performs b (cleanupCalls cluster backup) (runCleanup ⟨cluster, backup, some b.toStore⟩) := by
  have hdelete : ∀ key, Performs b (callDelete key) (b.delete key) := fun key w => rfl
  have hlist : ∀ pfx, Performs b (callList pfx) (b.list pfx) := fun pfx w => rfl
  refine ((hdelete _).adapt _).bind fun _ => ((hlist _).adapt _).bind fun keys => ?_
  refine (Performs.forM fun key => (hdelete key).adapt _).bind fun _ => ?_
  refine ((hlist _).adapt _).bind fun remaining => ?_
  split
  · exact fun w => rfl
  · exact fun w => rfl

end Performs

/-- The answer with which a cleanup succeeds: nothing is listed under the root. -/
def ConfirmsEmpty (setRoot : Str) : (r : StoreReq) → StoreResp r → Prop
  | .list pfx, x => pfx = setRoot ∧ x = Except.ok []
  | .delete _, _ => False

theorem pending_bind {good : (r : StoreReq) → StoreResp r → Prop} {α β : Type}
    (program : ExceptT Err StoreCalls α) {next : α → ExceptT Err StoreCalls β}
    (h : ∀ x, Calls.Pending good (next x).run) : Calls.Pending good (program >>= next).run := by
  refine Calls.Pending.bind program.run fun r => ?_
  cases r with
  | ok x => exact h x
  | error e => exact .error e

theorem cleanupCalls_pending (cluster backup : Str) :
    Calls.Pending (ConfirmsEmpty (setPrefix cluster backup)) (cleanupCalls cluster backup).run := by
  refine pending_bind _ fun _ => pending_bind _ fun keys => pending_bind _ fun _ => ?_
  refine ⟨fun x => ?_, fun a h => nomatch h⟩
  match x with
  | .error e => exact ⟨fun ⟨a, ha⟩ => (nomatch ha), trivial⟩
  | .ok [] => exact ⟨fun _ => ⟨rfl, rfl⟩, trivial⟩
  | .ok (key :: rest) => exact ⟨fun ⟨a, ha⟩ => (nomatch ha), trivial⟩

/-! ## Where a pod works -/

/-- The environment of a pod. The extra entries may refer to other objects and variables; what
they come to is told by `values`. -/
def podEnv (secret : List (Str × Str)) (values : EnvVar → Str) (job : JobTemplate) : List EnvVar :=
  secretEnv secret ++ jobEnv job.params ++ job.extraEnv.map fun e => { e with value := values e }

/-- Where a pod of the Job would work; it does not start without its Secret. -/
def podLocation (secrets : Str → Option (List (Str × Str))) (values : EnvVar → Str)
    (job : JobTemplate) : Except Err SetLocation :=
  if job.credsSecret = [] then locate (podEnv [] values job)
  else
    match secrets job.credsSecret with
    | none => .error { msg := "secret " ++ quote job.credsSecret ++ " not found" }
    | some secret => locate (podEnv secret values job)

/-- The names are those of the Job, whatever the Secret has, unless the user adds variables. -/
theorem podLocation_names {secrets : Str → Option (List (Str × Str))} {values : EnvVar → Str}
    {job : JobTemplate} {l : SetLocation} (hextra : job.extraEnv = [])
    (hcluster : job.params.cluster ≠ []) (hbackup : job.params.backup ≠ [])
    (h : podLocation secrets values job = .ok l) :
    l.cluster = job.params.cluster ∧ l.backup = job.params.backup := by
  obtain ⟨secret, h⟩ : ∃ secret, locate (podEnv secret values job) = .ok l := by
    unfold podLocation at h
    split at h
    · exact ⟨_, h⟩
    · split at h
      · cases h
      · exact ⟨_, h⟩
  have hset : ∀ {name value : Str}, (name, value) ∈ jobPairs job.params → value ≠ [] →
      getenv (podEnv secret values job) name = value := by
    intro name value hpair hvalue
    rw [podEnv, hextra, List.map_nil, List.append_nil,
      getenv_append ⟨⟨name, value, []⟩, mem_jobEnv.mpr ⟨hvalue, rfl, hpair⟩, rfl⟩]
    exact getenv_jobEnv hpair
  obtain ⟨hc, hb⟩ := locate_names h
  exact ⟨hc.trans (hset (by simp [jobPairs]) hcluster), hb.trans (hset (by simp [jobPairs]) hbackup)⟩

/-- An object of a backup-set. -/
inductive SetObject where
  | manifest
  | dump (shard : Int)
deriving DecidableEq

def SetObject.key (cluster backup : Str) : SetObject → Str
  | .manifest => manifestKey cluster backup
  | .dump shard => shardRDBKey cluster backup shard

/-- One object of the set is stored, whole or not. -/
def Uploads (b : Backend) (cluster backup : Str) (before after : Objects) :
    Prop :=
  ∃ (object : SetObject) (bytes : Bytes),
    after = before.insert (b.fullKey (object.key cluster backup)) bytes

section Uploads

variable {b : Backend} {before : Objects} {σ ρ : Type}

/-- Of the objects of a bucket only those of the set are new. -/
def OnlyUploads (b : Backend) (cluster backup : Str) (before : Objects)
    (w : Bucket) : Prop :=
  Relation.ReflTransGen (Uploads b cluster backup) before w.objects

theorem put_uploads {cluster backup : Str} (object : SetObject) (R : Reader σ) (s : σ) (n : Int) :
    Action.Keeps (OnlyUploads b cluster backup before) (b.put (object.key cluster backup) R s n)
      fun _ => True := by
  intro w hw
  have hstore : ∀ bytes, Relation.ReflTransGen (Uploads b cluster backup) before
      (w.objects.insert (b.fullKey (object.key cluster backup)) bytes) :=
    fun bytes => hw.tail ⟨object, bytes, rfl⟩
  refine ⟨?_, fun _ _ => trivial⟩
  unfold Action.after
  cases hput : b.put (object.key cluster backup) R s n w with
  | ok s' w' =>
    obtain ⟨-, rfl⟩ := b.put_returns hput
    exact hstore _
  | error e w' =>
    unfold OnlyUploads
    dsimp only
    rcases b.put_fails hput with hstored | hkept
    · exact hstored ▸ hstore _
    · exact hkept ▸ hw

variable (sha256 : Bytes → Str) {o : BackupOptions Bucket ρ}

theorem snapshotShard_uploads (source : RDBSource ρ) (sp : ShardPrimary) :
    Action.Keeps (OnlyUploads b o.cluster o.backupName before)
      (snapshotShard sha256 o b.toStore source sp) fun _ => True := by
  unfold snapshotShard
  cases source.openStream sp with
  | error e => exact .throw _
  | ok opened =>
    obtain ⟨stream, length⟩ := opened
    refine Action.Keeps.bind (.mapErr (put_uploads (.dump sp.index) _ _ length)) fun _ _ => ?_
    exact .pure trivial

theorem snapshotAll_uploads (source : RDBSource ρ) (shards : List ShardPrimary) (man : Manifest)
    (captured : List SlotRange) :
    Action.Keeps (OnlyUploads b o.cluster o.backupName before)
      (snapshotAll sha256 o b.toStore source shards man captured) fun _ => True := by
  induction shards generalizing man captured with
  | nil => exact .pure trivial
  | cons sp rest ih =>
    intro w hw
    have hshard := (snapshotShard_uploads sha256 source sp).after hw
    unfold Action.after at hshard
    unfold Action.after Action.outcome snapshotAll
    cases hrun : snapshotShard sha256 o b.toStore source sp w with
    | ok result w' =>
      rw [hrun] at hshard
      exact ih _ _ w' hshard
    | error e w' =>
      rw [hrun] at hshard
      by_cases hstrict : o.consistency ≠ consistencyBestEffort
      · simp only [if_pos hstrict]
        exact ⟨hshard, fun _ _ => trivial⟩
      · simp only [if_neg hstrict]
        exact ih _ _ w' hshard

/-- A backup run stores objects of its set and does nothing else. -/
theorem runBackup_uploads (marshalIndent : Manifest → Except Err Bytes) (S : Sorter ShardPrimary)
    (S' : Sorter SlotRange) (hstore : o.store = some b.toStore) :
    Action.Keeps (OnlyUploads b o.cluster o.backupName before)
      (runBackup sha256 marshalIndent S S' o) fun _ => True := by
  unfold runBackup
  rw [hstore]
  cases o.newRDBSource with
  | none => exact .throw _
  | some source =>
    refine Action.Keeps.bind (snapshotAll_uploads sha256 source _ _ _) fun result _ => ?_
    have hmanifest : ∀ man, Action.Keeps (OnlyUploads b o.cluster o.backupName before)
        ((writeManifest marshalIndent b.toStore (manifestKey o.cluster o.backupName) man).mapErr
          (Err.wrap "write manifest")) fun _ => True := by
      intro man
      unfold writeManifest
      cases marshalManifest marshalIndent man with
      | error e => exact .mapErr (.throw _)
      | ok data =>
        exact .mapErr (.bind (put_uploads .manifest _ _ data.length) fun _ _ => .pure trivial)
    obtain ⟨man, captured⟩ := result
    dsimp only
    split
    · exact .bind (Q := fun _ => True) (.throw _) fun _ _ => hmanifest _
    · exact hmanifest _

theorem runBackup_uploads_oneShard :
    let b := storeBackend ⟨.s3, "bucket", [], []⟩ []
    let o : BackupOptions Bucket (Bytes × End) :=
      ⟨['c'], ['n'], [], [], [], [], some b.toStore, [⟨0, [], [], [⟨0, 16383⟩], 0⟩],
        some ⟨slice, fun _ => .ok (("REDIS", .eof), 5)⟩, []⟩
    OnlyUploads b ['c'] ['n'] ∅
      ((runBackup hexChecksum (fun _ => .ok []) .insertion .insertion o).after ⟨∅, []⟩) := by
  intro b o
  exact (runBackup_uploads hexChecksum (fun _ => .ok []) .insertion .insertion (o := o) rfl).after
    .refl

end Uploads

/-- Every object of a set is listed for the root of the set. -/
theorem listed_of_object {l : SetLocation} (hcluster : Path.Proper l.cluster)
    (hbackup : Path.Proper l.backup) {object : SetObject} {w : Bucket}
    (hstored : l.backend.fullKey (object.key l.cluster l.backup) ∈ w.objects) :
    l.backend.fullKey (object.key l.cluster l.backup) ∈
      l.backend.listed w (setPrefix l.cluster l.backup) := by
  have hkey : ∃ file : Str, file.getLast? ≠ some '/' ∧ file ≠ [] ∧
      object.key l.cluster l.backup = setPrefix l.cluster l.backup ++ '/' :: file := by
    cases object with
    | manifest =>
      exact ⟨_, by decide, by decide, manifestKey_eq ⟨l.cluster, hcluster⟩ ⟨l.backup, hbackup⟩⟩
    | dump shard =>
      refine ⟨_, ?_, ?_, shardRDBKey_eq ⟨l.cluster, hcluster⟩ ⟨l.backup, hbackup⟩ shard⟩
      · rw [List.getLast?_append_of_ne_nil _ (by simp)]
        decide
      · exact List.append_ne_nil_of_right_ne_nil _ (by simp)
  obtain ⟨file, hlast, hne, hkey⟩ := hkey
  have hroot := setPrefix_eq ⟨l.cluster, hcluster⟩ ⟨l.backup, hbackup⟩
  refine List.mem_filter.mpr ⟨AList.mem_keys.mp hstored, ?_⟩
  unfold SetLocation.backend storeBackend
  rw [cloud_listPrefix_set l.store.kind l.root _ ⟨l.cluster, hcluster⟩ ⟨l.backup, hbackup⟩,
    cloudStore_selects, hkey, hroot,
    cloud_rooted l.store.kind l.root _ ⟨l.cluster, hcluster⟩ (List.append_assoc _ _ _),
    trimRight_eq_self]
  · exact ⟨'/' :: file, by simp [ownRoot]⟩
  · rw [List.getLast?_append_of_ne_nil _ (by simp), List.getLast?_cons_of_ne_nil hne]
    exact hlast

/-! ## Controller, Jobs and stores -/

/-- The pod of the Job of that uid: where it works, and what it has still to do if it is to
clean up. -/
structure Pod where
  uid : Nat
  location : SetLocation
  rest : StoreCalls (Except Err Unit)

structure ArtifactWorld where
  control : BackupWorld
  stores : StoreId → Objects
  /-- for which backup, and to which set, an object was written -/
  origin : StoreId → Str → Option (Nat × SetLocation)
  /-- the latest pod of the Job of a name -/
  pods : Str → Option Pod
  /-- the backups whose finalizer has been removed -/
  finalized : List Nat

inductive ArtifactEvent where
  | control (e : BackupEvent)
  /-- a pod of the Job starts; its extra variables have these values -/
  | start (jobName : Str) (values : EnvVar → Str)
  /-- the pod of a backup Job stores an object of its set -/
  | upload (jobName : Str) (object : SetObject) (bytes : Bytes)
  /-- the pod of a Job that cleans up gets its next call answered -/
  | call (jobName : Str) (reply : Reply)

namespace ArtifactWorld

/-- A Job that runs, with its pod. -/
def running (w : ArtifactWorld) (jobName : Str) : Option (Job × Pod) :=
  match w.control.jobs jobName, w.pods jobName with
  | some job, some pod => if job.active && pod.uid = job.uid then some (job, pod) else none
  | _, _ => none

def podSucceeded (w : ArtifactWorld) (jobName : Str) (uid : Nat) : Bool :=
  match w.pods jobName with
  | some ⟨podUid, _, .done (.ok ())⟩ => podUid = uid
  | _ => false

/-- The API server takes valid names only, and a Job that is to clean up is complete once its
pod has succeeded. -/
def admits (w : ArtifactWorld) : BackupEvent → Bool
  | .create name _ => decide (Path.Proper name)
  | .editCluster name _ => decide (Path.Proper name)
  | .jobReport name conditions _ =>
    match w.control.jobs name with
    | none => true
    | some job =>
      job.args ≠ cleanupArgs || !jobConditionTrue { job with conditions := conditions } .complete ||
        w.podSucceeded name job.uid
  | _ => true

def hasFinalizer (bk : Option PerconaValkeyBackup) : Bool :=
  bk.any fun bk => bk.finalizers.contains finalizerDeleteBackup

/-- The backup that has lost its finalizer. -/
def unfinalized (before after : BackupWorld) : BackupEvent → List Nat
  | .pass name _ =>
    match before.backups name with
    | some bk =>
      if hasFinalizer (some bk) && !hasFinalizer (after.backups name) then [bk.uid] else []
    | none => []
  | _ => []

def setStore (id : StoreId) (objects : Objects) (w : ArtifactWorld) : ArtifactWorld :=
  { w with stores := Function.update w.stores id objects }

def setPod (jobName : Str) (pod : Pod) (w : ArtifactWorld) : ArtifactWorld :=
  { w with pods := Function.update w.pods jobName (some pod) }

/-- The world after an object was written for the backup. -/
def uploaded (w : ArtifactWorld) (creator : Nat) (l : SetLocation) (key : Str) (bytes : Bytes) :
    ArtifactWorld :=
  { w.setStore l.store ((w.stores l.store).insert key bytes) with
    origin := Function.update w.origin l.store
      (Function.update (w.origin l.store) key (some (creator, l))) }

def step (w : ArtifactWorld) : ArtifactEvent → ArtifactWorld
  | .control e =>
    if w.admits e then
      { w with
        control := w.control.step e
        finalized := w.finalized ++ unfinalized w.control (w.control.step e) e }
    else w
  | .start jobName values =>
    match w.control.jobs jobName with
    | none => w
    | some job =>
      match podLocation w.control.secrets values job.toJobTemplate with
      | .error _ => w
      | .ok l => if job.active then w.setPod jobName ⟨job.uid, l, cleanupCalls l.cluster l.backup⟩
        else w
  | .upload jobName object bytes =>
    match w.running jobName with
    | none => w
    | some (job, pod) =>
      -- the arguments of a backup Job are the user's; these make it clean up
      if job.args = cleanupArgs then w
      else
        let l := pod.location
        w.uploaded job.creator l (l.backend.fullKey (object.key l.cluster l.backup)) bytes
  | .call jobName reply =>
    match w.running jobName with
    | some (job, ⟨uid, l, .call r next⟩) =>
      if job.args = cleanupArgs then
        let answered := l.backend.answer ⟨w.stores l.store, [reply]⟩ r
        (w.setStore l.store answered.2.objects).setPod jobName ⟨uid, l, next answered.1⟩
      else w
    | _ => w

def play (w : ArtifactWorld) (events : List ArtifactEvent) : ArtifactWorld :=
  events.foldl step w

/-- What an event does that is not passed over. -/
inductive Changes (w : ArtifactWorld) : ArtifactEvent → ArtifactWorld → Prop
  | control {e : BackupEvent} (admitted : w.admits e = true) :
    w.Changes (.control e)
      { w with
        control := w.control.step e
        finalized := w.finalized ++ unfinalized w.control (w.control.step e) e }
  | start {jobName : Str} {values : EnvVar → Str} {job : Job} {l : SetLocation}
    (stored : w.control.jobs jobName = some job)
    (located : podLocation w.control.secrets values job.toJobTemplate = .ok l) :
    w.Changes (.start jobName values)
      (w.setPod jobName ⟨job.uid, l, cleanupCalls l.cluster l.backup⟩)
  | upload {jobName : Str} {object : SetObject} {bytes : Bytes} {job : Job} {pod : Pod}
    (runs : w.running jobName = some (job, pod)) (backs : job.args ≠ cleanupArgs) :
    w.Changes (.upload jobName object bytes)
      (w.uploaded job.creator pod.location (pod.location.backend.fullKey
        (object.key pod.location.cluster pod.location.backup)) bytes)
  | call {jobName : Str} {reply : Reply} {job : Job} {uid : Nat} {l : SetLocation} {r : StoreReq}
    {next : StoreResp r → StoreCalls (Except Err Unit)}
    (runs : w.running jobName = some (job, ⟨uid, l, .call r next⟩)) :
    w.Changes (.call jobName reply)
      ((w.setStore l.store (l.backend.answer ⟨w.stores l.store, [reply]⟩ r).2.objects).setPod
        jobName ⟨uid, l, next (l.backend.answer ⟨w.stores l.store, [reply]⟩ r).1⟩)

theorem step_cases (w : ArtifactWorld) (e : ArtifactEvent) :
    w.step e = w ∨ w.Changes e (w.step e) := by
  cases e with
  | control e =>
    dsimp only [step]
    split
    · rename_i hadmits
      exact .inr (.control hadmits)
    · exact .inl rfl
  | start jobName values =>
    dsimp only [step]
    split
    · exact .inl rfl
    · rename_i hjob
      split
      · exact .inl rfl
      · rename_i hlocation
        split
        · exact .inr (.start hjob hlocation)
        · exact .inl rfl
  | upload jobName object bytes =>
    dsimp only [step]
    split
    · exact .inl rfl
    · rename_i hruns
      split
      · exact .inl rfl
      · rename_i hargs
        exact .inr (.upload hruns hargs)
  | call jobName reply =>
    dsimp only [step]
    split
    · rename_i hruns
      split
      · exact .inr (.call hruns)
      · exact .inl rfl
    · exact .inl rfl

end ArtifactWorld

end ValkeyOperator.Backup

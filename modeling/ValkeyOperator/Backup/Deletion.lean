import ValkeyOperator.Backup.Artifacts

/-! A deleted backup leaves nothing behind.

The finalizer goes once a Job named after the backup is complete. That this Job has
emptied the right place for good takes three things the controller does not look
at: the backup's own Job has stopped, the environment of the cleanup leads to the set that its
objects were written to, and the complete Job is not one of an earlier backup of the same
name. -/

namespace ValkeyOperator.Backup
open Text ValkeyOperator.Stream Api

variable {e : ArtifactEvent} {v v' : BackupWorld} {job : Job} {template : JobTemplate}
  {creator uid : Nat} {new : Option PerconaValkeyBackup} {bk : PerconaValkeyBackup}
  {jobName name : Str}

/-! ## How a namespace evolves -/

/-- The same backup, perhaps being deleted by now. -/
structure Successor (bk bk' : PerconaValkeyBackup) : Prop where
  uid : bk.uid = bk'.uid
  name : bk.name = bk'.name
  spec : bk.spec = bk'.spec
  deleting : bk.deleting = true → bk'.deleting = true

theorem Successor.refl (bk : PerconaValkeyBackup) : Successor bk bk := ⟨rfl, rfl, rfl, id⟩

/-- Backups keep their identity and stay deleted; a backup Job that runs did so
before or was created for a live backup. -/
structure Evolves (v v' : BackupWorld) : Prop where
  next : v.nextUid ≤ v'.nextUid
  backups : ∀ name bk', v'.backups name = some bk' → v.nextUid ≤ bk'.uid ∨
    ∃ bk, v.backups name = some bk ∧ Successor bk bk'
  jobs : ∀ jobName job', v'.jobs jobName = some job' → job'.args ≠ cleanupArgs →
    job'.active = true →
    (∃ job, v.jobs jobName = some job ∧ job.args ≠ cleanupArgs ∧ job.creator = job'.creator ∧
      job.active = true) ∨
    ∃ name bk, v.backups name = some bk ∧ bk.uid = job'.creator ∧ bk.deleting = false

/-- The backup is on its way out: its Job has stopped and it gets no other. -/
structure Retired (v : BackupWorld) (uid : Nat) : Prop where
  known : uid < v.nextUid
  deleting : ∀ name bk, v.backups name = some bk → bk.uid = uid → bk.deleting = true
  stopped : ∀ jobName job, v.jobs jobName = some job → job.args ≠ cleanupArgs →
    job.creator = uid → job.active = false

/-- The Job is the one of the backup of that uid, as long as there is that backup. -/
structure Traced (v : BackupWorld) (jobName : Str) (uid : Nat) : Prop where
  known : uid < v.nextUid
  fits : ∀ name bk, v.backups name = some bk → bk.uid = uid → jobName = backupJobName bk.name

section Evolves

variable {v v' : BackupWorld} {uid : Nat}

theorem Retired.evolve (h : Retired v uid) (hev : Evolves v v') : Retired v' uid := by
  refine ⟨Nat.lt_of_lt_of_le h.known hev.next, fun name bk' hstored huid => ?_,
    fun jobName job' hjob hargs hcreator => ?_⟩
  · rcases hev.backups name bk' hstored with hnew | ⟨bk, hbk, hsame⟩
    · have := h.known
      omega
    · exact hsame.deleting (h.deleting name bk hbk (hsame.uid.trans huid))
  · cases hactive : job'.active with
    | false => rfl
    | true =>
      rcases hev.jobs jobName job' hjob hargs hactive with
        ⟨job, hold, holdargs, hsame, hold_active⟩ | ⟨name, bk, hbk, hsame, hlive⟩
      · rw [h.stopped jobName job hold holdargs (hsame.trans hcreator)] at hold_active
        cases hold_active
      · rw [h.deleting name bk hbk (hsame.trans hcreator)] at hlive
        cases hlive

theorem Traced.evolve (h : Traced v jobName uid) (hev : Evolves v v') : Traced v' jobName uid := by
  refine ⟨Nat.lt_of_lt_of_le h.known hev.next, fun name bk' hstored huid => ?_⟩
  rcases hev.backups name bk' hstored with hnew | ⟨bk, hbk, hsame⟩
  · have := h.known
    omega
  · exact hsame.name ▸ h.fits name bk hbk (hsame.uid.trans huid)

theorem setBackup_successor {m : Str} {bk' : PerconaValkeyBackup}
    (hstored : v.backups name = some bk) (hsame : ∀ bk', new = some bk' → Successor bk bk')
    (hbk' : (v.setBackup name new).backups m = some bk') :
    ∃ bk, v.backups m = some bk ∧ Successor bk bk' := by
  by_cases hm : m = name
  · subst hm
    exact ⟨bk, hstored, hsame bk' (by simpa [BackupWorld.setBackup] using hbk')⟩
  · exact ⟨bk', by simpa [BackupWorld.setBackup, hm] using hbk', .refl bk'⟩

theorem setBackup_evolves (hstored : v.backups name = some bk)
    (hsame : ∀ bk', new = some bk' → Successor bk bk') : Evolves v (v.setBackup name new) :=
  ⟨Nat.le_refl _, fun _ _ hbk' => .inr (setBackup_successor hstored hsame hbk'),
    fun _ job hjob hargs hactive => .inl ⟨job, hjob, hargs, rfl, hactive⟩⟩

theorem finalize_successor {bk' : PerconaValkeyBackup}
    (h : (if bk.finalizers.filter (· ≠ finalizerDeleteBackup) = [] then none
      else some { bk with finalizers := bk.finalizers.filter (· ≠ finalizerDeleteBackup) }) =
        some bk') : Successor bk bk' := by
  split at h
  · cases h
  · cases h
    exact ⟨rfl, rfl, rfl, id⟩

end Evolves

/-! ## The invariant -/

/-- No object written for the backup exists. -/
def Clean (w : ArtifactWorld) (uid : Nat) : Prop :=
  ∀ id key l, key ∈ w.stores id → w.origin id key ≠ some (uid, l)

/-- All that exists of the backup was written to that set. -/
def WrittenTo (w : ArtifactWorld) (uid : Nat) (location : SetLocation) : Prop :=
  ∀ id key l, key ∈ w.stores id → w.origin id key = some (uid, l) → l = location

structure SoundBackupJob (w : ArtifactWorld) (jobName : Str) (job : Job) : Prop where
  name : ∃ name, jobName = backupJobName name
  traced : Traced w.control jobName job.creator

/-- A pod looks where the objects of the backup are, and has succeeded only if there are none
left. -/
structure SoundPod (w : ArtifactWorld) (uid : Nat) (pod : Pod) : Prop where
  cluster : Path.Proper pod.location.cluster
  backup : Path.Proper pod.location.backup
  written : WrittenTo w uid pod.location
  ends : pod.rest.EndsWell (ConfirmsEmpty (setPrefix pod.location.cluster pod.location.backup))
  done : pod.rest = .done (.ok ()) → Clean w uid

structure SoundCleanupJob (w : ArtifactWorld) (jobName : Str) (job : Job) : Prop where
  name : ∃ name, jobName = cleanupJobName name
  args : job.args = cleanupArgs
  extraEnv : job.extraEnv = []
  cluster : Path.Proper job.params.cluster
  backup : Path.Proper job.params.backup
  retired : Retired w.control job.creator
  pod : ∀ pod, w.pods jobName = some pod → pod.uid = job.uid → SoundPod w job.creator pod
  done : jobConditionTrue job .complete = true → Clean w job.creator

def SoundJob (w : ArtifactWorld) (jobName : Str) (job : Job) : Prop :=
  job.uid < w.control.nextUid ∧ (SoundBackupJob w jobName job ∨ SoundCleanupJob w jobName job)

structure Consistent (w : ArtifactWorld) : Prop where
  named : ∀ name bk, w.control.backups name = some bk →
    bk.name = name ∧ Path.Proper name ∧ bk.uid < w.control.nextUid
  unique : ∀ a b bkA bkB, w.control.backups a = some bkA → w.control.backups b = some bkB →
    bkA.uid = bkB.uid → a = b
  clusters : ∀ name cluster, w.control.clusters name = some cluster → Path.Proper name
  jobs : ∀ jobName job, w.control.jobs jobName = some job → SoundJob w jobName job
  objects : ∀ id key uid l, key ∈ w.stores id → w.origin id key = some (uid, l) →
    l.store = id ∧ ∃ object : SetObject, key = l.backend.fullKey (object.key l.cluster l.backup)
  pods : ∀ jobName pod, w.pods jobName = some pod → pod.uid < w.control.nextUid
  finalized : ∀ uid ∈ w.finalized, Retired w.control uid ∧ Clean w uid

/-! ## What the controller and its users do -/

section Control

variable {w : ArtifactWorld} {v' : BackupWorld}

theorem SoundJob.evolve (h : SoundJob w jobName job) (hev : Evolves w.control v') :
    SoundJob { w with control := v' } jobName job := by
  obtain ⟨huid, hjob | hjob⟩ := h
  · exact ⟨Nat.lt_of_lt_of_le huid hev.next, .inl ⟨hjob.name, hjob.traced.evolve hev⟩⟩
  · exact ⟨Nat.lt_of_lt_of_le huid hev.next, .inr { hjob with
      retired := hjob.retired.evolve hev
      pod := fun pod hpod huid => { hjob.pod pod hpod huid with } }⟩

/-- Objects, pods and finalized backups are as before when the controller or a user
has acted. -/
theorem Consistent.evolve (h : Consistent w) (hev : Evolves w.control v')
    (hnamed : ∀ name bk, v'.backups name = some bk →
      bk.name = name ∧ Path.Proper name ∧ bk.uid < v'.nextUid)
    (hunique : ∀ a b bkA bkB, v'.backups a = some bkA → v'.backups b = some bkB →
      bkA.uid = bkB.uid → a = b)
    (hclusters : ∀ name cluster, v'.clusters name = some cluster → Path.Proper name)
    (hjobs : ∀ jobName job, v'.jobs jobName = some job →
      SoundJob { w with control := v' } jobName job) :
    Consistent { w with control := v' } := by
  refine ⟨hnamed, hunique, hclusters, hjobs, h.objects, fun jobName pod hpod => ?_,
    fun uid huid => ?_⟩
  · exact Nat.lt_of_lt_of_le (h.pods jobName pod hpod) hev.next
  · obtain ⟨hretired, hclean⟩ := h.finalized uid huid
    exact ⟨hretired.evolve hev, hclean⟩

theorem Consistent.advance (h : Consistent w) (hev : Evolves w.control v')
    (hbackups : ∀ name bk', v'.backups name = some bk' →
      ∃ bk, w.control.backups name = some bk ∧ Successor bk bk')
    (hclusters : ∀ name cluster, v'.clusters name = some cluster → Path.Proper name)
    (hjobs : ∀ jobName job, v'.jobs jobName = some job →
      w.control.jobs jobName = some job ∨ SoundJob { w with control := v' } jobName job) :
    Consistent { w with control := v' } := by
  refine h.evolve hev (fun name bk' hbk' => ?_) (fun a b bkA bkB hA hB huid => ?_) hclusters
    fun jobName job hjob => ?_
  · obtain ⟨bk, hbk, hsame⟩ := hbackups name bk' hbk'
    obtain ⟨hname, hproper, hknown⟩ := h.named name bk hbk
    exact ⟨hsame.name.symm.trans hname, hproper, hsame.uid ▸ Nat.lt_of_lt_of_le hknown hev.next⟩
  · obtain ⟨bkA', hA', hsameA⟩ := hbackups a bkA hA
    obtain ⟨bkB', hB', hsameB⟩ := hbackups b bkB hB
    exact h.unique a b bkA' bkB' hA' hB' (by rw [hsameA.uid, huid, hsameB.uid])
  · rcases hjobs jobName job hjob with hold | hsound
    · exact (h.jobs jobName job hold).evolve hev
    · exact hsound

theorem Consistent.same (h : Consistent w) (hnext : v'.nextUid = w.control.nextUid)
    (hbackups : v'.backups = w.control.backups) (hclusters : v'.clusters = w.control.clusters)
    (hjobs : v'.jobs = w.control.jobs) : Consistent { w with control := v' } := by
  have hev : Evolves w.control v' := by
    refine ⟨Nat.le_of_eq hnext.symm, fun m bk hbk => .inr ⟨bk, hbackups ▸ hbk, .refl bk⟩, ?_⟩
    exact fun _ job hjob hargs hactive => .inl ⟨job, hjobs ▸ hjob, hargs, rfl, hactive⟩
  exact h.advance hev (fun m bk hbk => ⟨bk, hbackups ▸ hbk, .refl bk⟩) (hclusters ▸ h.clusters)
    fun _ _ hjob => .inl (hjobs ▸ hjob)

theorem Consistent.setBackup (h : Consistent w) (hstored : w.control.backups name = some bk)
    (hsame : ∀ bk', new = some bk' → Successor bk bk') :
    Consistent { w with control := w.control.setBackup name new } :=
  h.advance (setBackup_evolves hstored hsame) (fun _ _ => setBackup_successor hstored hsame)
    h.clusters fun _ _ hjob => .inl hjob

theorem Consistent.dropJob (h : Consistent w) (name : Str) :
    Consistent { w with control := w.control.setJob name none } := by
  have hjobs : ∀ jobName job, (w.control.setJob name none).jobs jobName = some job →
      w.control.jobs jobName = some job := by
    intro jobName job hjob
    by_cases hj : jobName = name
    · simp [BackupWorld.setJob, hj] at hjob
    · simpa [BackupWorld.setJob, hj] using hjob
  have hev : Evolves w.control (w.control.setJob name none) :=
    ⟨Nat.le_refl _, fun m bk hbk => .inr ⟨bk, hbk, .refl bk⟩,
      fun jobName job hjob hargs hactive => .inl ⟨job, hjobs jobName job hjob, hargs, rfl, hactive⟩⟩
  exact h.advance hev (fun m bk hbk => ⟨bk, hbk, .refl bk⟩) h.clusters
    fun jobName job hjob => .inl (hjobs jobName job hjob)

theorem spawn_jobs (h : (v.spawn name creator template).jobs jobName = some job) :
    v.jobs jobName = some job ∨ v.jobs name = none ∧ jobName = name ∧
      job = { template with uid := v.nextUid, creator := creator } := by
  cases hnone : v.jobs name with
  | some old =>
    simp only [BackupWorld.spawn, hnone] at h
    exact .inl h
  | none =>
    simp only [BackupWorld.spawn, hnone, BackupWorld.setJob] at h
    by_cases hj : jobName = name
    · subst hj
      rw [Function.update_self] at h
      cases h
      exact .inr ⟨rfl, rfl, rfl⟩
    · rw [Function.update_of_ne hj] at h
      exact .inl h

theorem spawn_evolves (hlive : template.args ≠ cleanupArgs →
      ∃ m bk, v.backups m = some bk ∧ bk.uid = creator ∧ bk.deleting = false) :
    Evolves v (v.spawn name creator template) := by
  refine ⟨?_, fun m bk hbk => ?_, fun jobName job hjob hargs hactive => ?_⟩
  · unfold BackupWorld.spawn
    split
    · exact Nat.le_refl _
    · exact Nat.le_succ _
  · rw [BackupWorld.spawn_backups] at hbk
    exact .inr ⟨bk, hbk, .refl bk⟩
  · rcases spawn_jobs hjob with hold | ⟨-, -, rfl⟩
    · exact .inl ⟨job, hold, hargs, rfl, hactive⟩
    · exact .inr (hlive hargs)

theorem Consistent.spawn (h : Consistent w)
    (hev : Evolves w.control (w.control.spawn name creator template))
    (hsound : w.control.jobs name = none →
      SoundJob { w with control := w.control.spawn name creator template } name
        { template with uid := w.control.nextUid, creator := creator }) :
    Consistent { w with control := w.control.spawn name creator template } := by
  refine h.advance hev (fun m bk hbk => ⟨bk, by simpa using hbk, .refl bk⟩)
    (by simpa using h.clusters) fun jobName job hjob => ?_
  rcases spawn_jobs hjob with hold | ⟨hnone, rfl, rfl⟩
  · exact .inl hold
  · exact .inr (hsound hnone)

theorem Consistent.advances (h : Consistent w) (he : Advances name w.control v') :
    Consistent { w with control := v' } := by
  cases he with
  | lease cluster lease => exact h.same rfl rfl rfl rfl
  | status hstored status =>
    refine h.setBackup hstored fun bk' hbk' => ?_
    cases hbk'
    exact ⟨rfl, rfl, rfl, id⟩
  | finalizer hstored =>
    refine h.setBackup hstored fun bk' hbk' => ?_
    cases hbk'
    exact ⟨rfl, rfl, rfl, id⟩
  | @job bk cluster rs hstored hlive _ hcluster _ =>
    obtain ⟨rfl, -, hknown⟩ := h.named name bk hstored
    refine h.spawn (spawn_evolves fun _ => ⟨_, bk, hstored, rfl, hlive⟩) fun hnone => ?_
    have hnext := @BackupWorld.spawn_nextUid (backupJobName bk.name) bk.uid
      (desiredBackupJob bk cluster rs) _ hnone
    refine ⟨by rw [hnext]; exact Nat.lt_succ_self _, .inl ⟨⟨_, rfl⟩, ?_, ?_⟩⟩
    · rw [hnext]
      exact Nat.lt_succ_of_lt hknown
    · intro m bk' hbk' huid
      rw [BackupWorld.spawn_backups] at hbk'
      obtain rfl := h.unique _ _ _ _ hbk' hstored huid
      cases hbk'.symm.trans hstored
      rfl

theorem Consistent.advances_all (h : Consistent w)
    (he : Relation.ReflTransGen (Advances name) w.control v') :
    Consistent { w with control := v' } := by
  induction he with
  | refl => exact h
  | tail _ hlast ih => exact ih.advances hlast

/-! ### Deletion -/

/-- What has to hold when a pass finds a backup that is being deleted. -/
structure Tidy (w : ArtifactWorld) (bk : PerconaValkeyBackup) : Prop where
  /-- its own Job has stopped -/
  stopped : ∀ job, w.control.jobs (backupJobName bk.name) = some job → job.creator = bk.uid →
    job.active = false
  /-- the cleanup Job is not one of an earlier backup -/
  own : ∀ job, w.control.jobs (cleanupJobName bk.name) = some job → job.creator = bk.uid

theorem Consistent.retired (h : Consistent w) (hstored : w.control.backups name = some bk)
    (hdeleting : bk.deleting = true) (htidy : Tidy w bk) : Retired w.control bk.uid := by
  obtain ⟨rfl, -, hknown⟩ := h.named name bk hstored
  refine ⟨hknown, fun m bk' hbk' huid => ?_, fun jobName job hjob hargs hcreator => ?_⟩
  · obtain rfl := h.unique _ _ _ _ hbk' hstored huid
    cases hbk'.symm.trans hstored
    exact hdeleting
  · obtain ⟨-, hsound | hsound⟩ := h.jobs jobName job hjob
    · have hname := hsound.traced.fits _ bk hstored hcreator.symm
      exact htidy.stopped job (hname ▸ hjob) hcreator
    · exact absurd hsound.args hargs

theorem Consistent.cleans (h : Consistent w) (hstored : w.control.backups name = some bk)
    (hdeleting : bk.deleting = true) (htidy : Tidy w bk) (he : Cleans bk w.control v') :
    Consistent { w with control := v' } := by
  have hretired := h.retired hstored hdeleting htidy
  obtain ⟨rfl, hproper, hknown⟩ := h.named name bk hstored
  cases he with
  | @job cluster rs hcluster hstorage habsent =>
    have hev : Evolves w.control (w.control.spawn (cleanupJobName bk.name) bk.uid
        (desiredCleanupJob bk rs)) := spawn_evolves fun hargs => absurd rfl hargs
    refine h.spawn hev fun hnone => ?_
    have hnext := @BackupWorld.spawn_nextUid (cleanupJobName bk.name) bk.uid
      (desiredCleanupJob bk rs) _ hnone
    refine ⟨by rw [hnext]; exact Nat.lt_succ_self _, .inr
      { name := ⟨_, rfl⟩, args := rfl, extraEnv := rfl, cluster := h.clusters _ cluster hcluster
        backup := hproper, retired := hretired.evolve hev, pod := fun pod hpod huid => ?_
        done := nofun }⟩
    -- a pod of that name is one of an earlier Job
    have hearlier := h.pods _ pod hpod
    exact absurd huid (Nat.ne_of_lt hearlier)
  | drop _ _ => exact h.dropJob _
  | finalize _ _ => exact h.setBackup hstored fun _ => finalize_successor

end Control

/-! ## What the pods do -/

section Pods

variable {w w' : ArtifactWorld} {jobName : Str} {job : Job} {pod : Pod}

theorem running_eq_some (h : w.running jobName = some (job, pod)) :
    w.control.jobs jobName = some job ∧ w.pods jobName = some pod ∧ job.active = true ∧
      pod.uid = job.uid := by
  unfold ArtifactWorld.running at h
  split at h
  · rename_i job' pod' hjob hpod
    split at h
    · rename_i hruns
      simp only [Bool.and_eq_true, decide_eq_true_eq] at hruns
      cases h
      exact ⟨hjob, hpod, hruns⟩
    · cases h
  · cases h

/-- The objects of a backup are among those that it had, to the same sets. -/
def Keeps (w w' : ArtifactWorld) (uid : Nat) : Prop :=
  ∀ id key l, key ∈ w'.stores id → w'.origin id key = some (uid, l) →
    key ∈ w.stores id ∧ w.origin id key = some (uid, l)

theorem Keeps.clean {uid : Nat} (hkeeps : Keeps w w' uid) (h : Clean w uid) : Clean w' uid :=
  fun id key l hmem horigin => h id key l (hkeeps id key l hmem horigin).1
    (hkeeps id key l hmem horigin).2

theorem Keeps.written {location : SetLocation} (hkeeps : Keeps w w' uid)
    (h : WrittenTo w uid location) : WrittenTo w' uid location :=
  fun id key l hmem horigin => h id key l (hkeeps id key l hmem horigin).1
    (hkeeps id key l hmem horigin).2

theorem Keeps.soundPod (hkeeps : Keeps w w' uid) (h : SoundPod w uid pod) : SoundPod w' uid pod :=
  { h with written := hkeeps.written h.written, done := fun hdone => hkeeps.clean (h.done hdone) }

/-- Retired backups get no objects, and a pod of a Job that is to clean up is sound. -/
theorem Consistent.pods_act (h : Consistent w) (hcontrol : w'.control = w.control)
    (hfinalized : w'.finalized = w.finalized)
    (hkeeps : ∀ uid, Retired w.control uid → Keeps w w' uid)
    (hobjects : ∀ id key uid l, key ∈ w'.stores id → w'.origin id key = some (uid, l) →
      l.store = id ∧ ∃ object : SetObject, key = l.backend.fullKey (object.key l.cluster l.backup))
    (hpods : ∀ jobName pod, w'.pods jobName = some pod → w.pods jobName = some pod ∨
      ∃ job, w.control.jobs jobName = some job ∧ pod.uid = job.uid ∧
        (SoundCleanupJob w jobName job → SoundPod w' job.creator pod)) : Consistent w' := by
  refine ⟨hcontrol ▸ h.named, hcontrol ▸ h.unique, hcontrol ▸ h.clusters, ?_, hobjects, ?_, ?_⟩
  · rw [hcontrol]
    intro jobName job hjob
    obtain ⟨huid, hbackup | hcleanup⟩ := h.jobs jobName job hjob
    · exact ⟨hcontrol.symm ▸ huid, .inl ⟨hbackup.name, hcontrol.symm ▸ hbackup.traced⟩⟩
    · have hkeeps := hkeeps _ hcleanup.retired
      refine ⟨hcontrol.symm ▸ huid, .inr { hcleanup with
        retired := hcontrol.symm ▸ hcleanup.retired
        pod := fun pod hpod hsame => ?_
        done := fun hdone => hkeeps.clean (hcleanup.done hdone) }⟩
      rcases hpods jobName pod hpod with hold | ⟨job', hjob', -, hsound⟩
      · exact hkeeps.soundPod (hcleanup.pod pod hold hsame)
      · cases hjob.symm.trans hjob'
        exact hsound hcleanup
  · intro jobName pod hpod
    rw [hcontrol]
    rcases hpods jobName pod hpod with hold | ⟨job, hjob, hsame, -⟩
    · exact h.pods jobName pod hold
    · exact hsame ▸ (h.jobs jobName job hjob).1
  · rw [hcontrol, hfinalized]
    intro uid huid
    obtain ⟨hretired, hclean⟩ := h.finalized uid huid
    exact ⟨hretired, (hkeeps uid hretired).clean hclean⟩

theorem setPod_pods {w : ArtifactWorld} {pod' : Pod} {other : Str}
    (h : (w.setPod jobName pod).pods other = some pod') :
    w.pods other = some pod' ∨ other = jobName ∧ pod' = pod := by
  by_cases hname : other = jobName
  · subst hname
    simp only [ArtifactWorld.setPod, Function.update_self, Option.some.injEq] at h
    exact .inr ⟨rfl, h.symm⟩
  · simp only [ArtifactWorld.setPod, Function.update_of_ne hname] at h
    exact .inl h

/-! ### Starts and uploads -/

theorem Consistent.start (h : Consistent w) {values : EnvVar → Str} {l : SetLocation}
    (hjob : w.control.jobs jobName = some job)
    (hlocation : podLocation w.control.secrets values job.toJobTemplate = .ok l)
    (hwritten : SoundCleanupJob w jobName job → WrittenTo w job.creator l) :
    Consistent (w.setPod jobName ⟨job.uid, l, cleanupCalls l.cluster l.backup⟩) := by
  refine h.pods_act rfl rfl (fun _ _ _ _ _ hmem horigin => ⟨hmem, horigin⟩) h.objects
    fun other pod hpod => ?_
  rcases setPod_pods hpod with hold | ⟨rfl, rfl⟩
  · exact .inl hold
  refine .inr ⟨job, hjob, rfl, fun hsound => ?_⟩
  obtain ⟨hcluster, hbackup⟩ := podLocation_names hsound.extraEnv hsound.cluster.nonempty
    hsound.backup.nonempty hlocation
  have hpending := cleanupCalls_pending l.cluster l.backup
  exact { cluster := hcluster ▸ hsound.cluster, backup := hbackup ▸ hsound.backup
          written := hwritten hsound, ends := hpending.ends
          done := fun hdone => absurd hdone (hpending.open_ ()) }

theorem uploaded_origin {l l' : SetLocation} {key key' : Str} {bytes : Bytes} {id : StoreId}
    (hmem : key' ∈ (w.uploaded creator l key bytes).stores id)
    (horigin : (w.uploaded creator l key bytes).origin id key' = some (uid, l')) :
    (key' ∈ w.stores id ∧ w.origin id key' = some (uid, l')) ∨
      id = l.store ∧ key' = key ∧ uid = creator ∧ l' = l := by
  by_cases hid : id = l.store
  · subst hid
    simp only [ArtifactWorld.uploaded, ArtifactWorld.setStore, Function.update_self] at hmem horigin
    by_cases hkey : key' = key
    · subst hkey
      rw [Function.update_self] at horigin
      cases horigin
      exact .inr ⟨rfl, rfl, rfl, rfl⟩
    · rw [Function.update_of_ne hkey] at horigin
      exact .inl ⟨(AList.mem_insert _).mp hmem |>.resolve_left hkey, horigin⟩
  · simp only [ArtifactWorld.uploaded, ArtifactWorld.setStore, Function.update_of_ne hid]
      at hmem horigin
    exact .inl ⟨hmem, horigin⟩

theorem Consistent.upload (h : Consistent w) (hruns : w.running jobName = some (job, pod))
    (hargs : job.args ≠ cleanupArgs) (object : SetObject) (bytes : Bytes) :
    Consistent (w.uploaded job.creator pod.location (pod.location.backend.fullKey
      (object.key pod.location.cluster pod.location.backup)) bytes) := by
  obtain ⟨hjob, -, hactive, -⟩ := running_eq_some hruns
  refine h.pods_act rfl rfl (fun uid hretired id key l hmem horigin => ?_)
    (fun id key uid l hmem horigin => ?_) fun _ _ hpod => .inl hpod
  · rcases uploaded_origin hmem horigin with hold | ⟨-, -, rfl, -⟩
    · exact hold
    · rw [hretired.stopped jobName job hjob hargs rfl] at hactive
      cases hactive
  · rcases uploaded_origin hmem horigin with ⟨hold, horigin⟩ | ⟨rfl, rfl, -, rfl⟩
    · exact h.objects id key uid l hold horigin
    · exact ⟨rfl, object, rfl⟩

/-! ### Calls -/

theorem setStore_stores {id id' : StoreId} {objects : Objects} {key : Str}
    (hsub : ∀ key ∈ objects, key ∈ w.stores id) (hmem : key ∈ (w.setStore id objects).stores id') :
    key ∈ w.stores id' := by
  by_cases hid : id' = id
  · subst hid
    simp only [ArtifactWorld.setStore, Function.update_self] at hmem
    exact hsub key hmem
  · simpa only [ArtifactWorld.setStore, Function.update_of_ne hid] using hmem

theorem SoundPod.clean_of_listed (h : Consistent w) (hsound : SoundPod w uid pod)
    {script : List Reply} (hlisted : pod.location.backend.listed
      ⟨w.stores pod.location.store, script⟩
      (setPrefix pod.location.cluster pod.location.backup) = []) : Clean w uid := by
  intro id key l hmem horigin
  obtain rfl := hsound.written id key l hmem horigin
  obtain ⟨rfl, object, rfl⟩ := h.objects id key _ _ hmem horigin
  have hfound := listed_of_object hsound.cluster hsound.backup
    (w := ⟨w.stores pod.location.store, script⟩) hmem
  rw [hlisted] at hfound
  cases hfound

theorem Consistent.call (h : Consistent w) {l : SetLocation} {reply : Reply} {r : StoreReq}
    {next : StoreResp r → StoreCalls (Except Err Unit)}
    (hruns : w.running jobName = some (job, ⟨uid, l, .call r next⟩)) :
    Consistent ((w.setStore l.store
      (l.backend.answer ⟨w.stores l.store, [reply]⟩ r).2.objects).setPod jobName
        ⟨uid, l, next (l.backend.answer ⟨w.stores l.store, [reply]⟩ r).1⟩) := by
  obtain ⟨hjob, hpod, -, hsame⟩ := running_eq_some hruns
  have hsub : ∀ id key, key ∈ (w.setStore l.store
      (l.backend.answer ⟨w.stores l.store, [reply]⟩ r).2.objects).stores id → key ∈ w.stores id :=
    fun _ _ => setStore_stores fun _ => Backend.answer_objects
  have hkeeps : ∀ other, Keeps w ((w.setStore l.store
      (l.backend.answer ⟨w.stores l.store, [reply]⟩ r).2.objects).setPod jobName
        ⟨uid, l, next (l.backend.answer ⟨w.stores l.store, [reply]⟩ r).1⟩) other :=
    fun _ id key _ hmem horigin => ⟨hsub id key hmem, horigin⟩
  refine h.pods_act rfl rfl (fun uid _ => hkeeps uid)
    (fun id key uid l' hmem => h.objects id key uid l' (hsub id key hmem)) fun other pod hpod' => ?_
  rcases setPod_pods hpod' with hold | ⟨rfl, rfl⟩
  · exact .inl hold
  refine .inr ⟨job, hjob, hsame, fun hcleanup => ?_⟩
  have hsound := hcleanup.pod _ hpod hsame
  obtain ⟨hgood, hends⟩ := hsound.ends (l.backend.answer ⟨w.stores l.store, [reply]⟩ r).1
  refine { hsound with written := (hkeeps _).written hsound.written, ends := hends
                       done := fun hdone => ?_ }
  -- only an empty listing of the set's root lets the pod succeed
  have hgood := hgood ⟨(), hdone⟩
  cases r with
  | list pfx =>
    obtain ⟨hpfx, hempty⟩ := hgood
    dsimp only at hpfx
    subst hpfx
    exact (hkeeps _).clean (hsound.clean_of_listed h (Backend.listed_eq_nil hempty))
  | delete key => exact hgood.elim

end Pods

/-! ## Events -/

section Events

variable {w : ArtifactWorld}

theorem pod_of_admits {conditions : List JobCondition} {failedPods : Int}
    (hjob : w.control.jobs jobName = some job) (hargs : job.args = cleanupArgs)
    (hadmits : w.admits (.jobReport jobName conditions failedPods) = true)
    (hcomplete : jobConditionTrue { job with conditions := conditions } .complete = true) :
    ∃ pod, w.pods jobName = some pod ∧ pod.uid = job.uid ∧ pod.rest = .done (.ok ()) := by
  simp only [ArtifactWorld.admits, hjob, Bool.or_eq_true, Bool.not_eq_true', decide_eq_true_eq]
    at hadmits
  rcases hadmits with (hother | hopen) | hpod
  · exact absurd hargs hother
  · rw [hcomplete] at hopen
    cases hopen
  · unfold ArtifactWorld.podSucceeded at hpod
    split at hpod
    · rename_i hread
      exact ⟨_, hread, of_decide_eq_true hpod, rfl⟩
    · cases hpod

/-- An unfinished Job reports; a cleanup Job says Complete only if its pod says so. -/
theorem Consistent.report (h : Consistent w) {job' : Job} {conditions : List JobCondition}
    {failedPods : Int} (hjob : w.control.jobs jobName = some job) (hactive : job.active = true)
    (hadmits : w.admits (.jobReport jobName conditions failedPods) = true)
    (hjob' : job' = { job with conditions := conditions, failedPods := failedPods }) :
    Consistent { w with control := w.control.setJob jobName (some job') } := by
  have hjobs : ∀ jobName' old, (w.control.setJob jobName (some job')).jobs jobName' = some old →
      w.control.jobs jobName' = some old ∨ jobName' = jobName ∧ old = job' := by
    intro jobName' old hold
    by_cases hname : jobName' = jobName
    · simp only [BackupWorld.setJob, hname, Function.update_self, Option.some.injEq] at hold
      exact .inr ⟨hname, hold.symm⟩
    · exact .inl (by simpa [BackupWorld.setJob, hname] using hold)
  have hev : Evolves w.control (w.control.setJob jobName (some job')) := by
    refine ⟨Nat.le_refl _, fun m bk hbk => .inr ⟨bk, hbk, .refl bk⟩,
      fun jobName' old hold hargs hruns => .inl ?_⟩
    rcases hjobs jobName' old hold with hold | ⟨rfl, rfl⟩
    · exact ⟨old, hold, hargs, rfl, hruns⟩
    · subst hjob'
      exact ⟨job, hjob, hargs, rfl, hactive⟩
  refine h.advance hev (fun m bk hbk => ⟨bk, hbk, .refl bk⟩) h.clusters fun jobName' old hold => ?_
  rcases hjobs jobName' old hold with hold | ⟨rfl, rfl⟩
  · exact .inl hold
  subst hjob'
  obtain ⟨huid, hbackup | hcleanup⟩ := (h.jobs jobName' job hjob).evolve hev
  · exact .inr ⟨huid, .inl ⟨hbackup.name, hbackup.traced⟩⟩
  refine .inr ⟨huid, .inr { hcleanup with done := fun hcomplete => ?_ }⟩
  obtain ⟨pod, hpod, hsame, hdone⟩ := pod_of_admits hjob hcleanup.args hadmits hcomplete
  exact (hcleanup.pod pod hpod hsame).done hdone

theorem Consistent.create (h : Consistent w) {name : Str} {bk : PerconaValkeyBackup}
    (hproper : Path.Proper name) (hnone : w.control.backups name = none) (hname : bk.name = name)
    (huid : bk.uid = w.control.nextUid) {v' : BackupWorld}
    (hv' : v' = { w.control.setBackup name (some bk) with nextUid := w.control.nextUid + 1 }) :
    Consistent { w with control := v' } := by
  subst hv'
  have hbackups : ∀ m bk', Function.update w.control.backups name (some bk) m = some bk' →
      (m = name ∧ bk' = bk) ∨ w.control.backups m = some bk' := by
    intro m bk' hbk'
    by_cases hm : m = name
    · simp only [hm, Function.update_self, Option.some.injEq] at hbk'
      exact .inl ⟨hm, hbk'.symm⟩
    · exact .inr (by simpa [hm] using hbk')
  have hev : Evolves w.control
      { w.control.setBackup name (some bk) with nextUid := w.control.nextUid + 1 } := by
    refine ⟨Nat.le_succ _, fun m bk' hbk' => ?_,
      fun _ job hjob hargs hactive => .inl ⟨job, hjob, hargs, rfl, hactive⟩⟩
    rcases hbackups m bk' hbk' with ⟨-, rfl⟩ | hold
    · exact .inl (Nat.le_of_eq huid.symm)
    · exact .inr ⟨bk', hold, .refl bk'⟩
  refine h.evolve hev (fun m bk' hbk' => ?_) (fun a b bkA bkB hA hB hsame => ?_) h.clusters
    fun jobName job hjob => (h.jobs jobName job hjob).evolve hev
  · rcases hbackups m bk' hbk' with ⟨rfl, rfl⟩ | hold
    · exact ⟨hname, hproper, by rw [huid]; exact Nat.lt_succ_self _⟩
    · obtain ⟨hn, hp, hknown⟩ := h.named m bk' hold
      exact ⟨hn, hp, Nat.lt_succ_of_lt hknown⟩
  · -- the uid of the new backup is the next one, those of the others are smaller
    rcases hbackups a bkA hA with ⟨rfl, rfl⟩ | holdA
    · rcases hbackups b bkB hB with ⟨rfl, rfl⟩ | holdB
      · rfl
      · have := (h.named b bkB holdB).2.2
        omega
    · rcases hbackups b bkB hB with ⟨rfl, rfl⟩ | holdB
      · have := (h.named a bkA holdA).2.2
        omega
      · exact h.unique a b bkA bkB holdA holdB hsame

/-- What has to hold when a cleanup Job gets a pod: its environment leads to the set that the
backup was written to. -/
def AtSet (w : ArtifactWorld) (job : Job) (values : EnvVar → Str) : Prop :=
  ∀ l, podLocation w.control.secrets values job.toJobTemplate = .ok l → WrittenTo w job.creator l

/-- The controller and the cluster clean up thoroughly. -/
def TidyEvent (w : ArtifactWorld) : ArtifactEvent → Prop
  | .control (.pass name _) => ∀ bk, w.control.backups name = some bk → bk.deleting = true →
      finalizerDeleteBackup ∈ bk.finalizers → Tidy w bk
  | .start jobName values => ∀ name job, jobName = cleanupJobName name →
      w.control.jobs jobName = some job → AtSet w job values
  | _ => True

theorem Consistent.pass (h : Consistent w)
    (htidy : ∀ bk, w.control.backups name = some bk → bk.deleting = true →
      finalizerDeleteBackup ∈ bk.finalizers → Tidy w bk) (hdoes : PassDoes name w.control v') :
    Consistent { w with control := v' } := by
  cases hdoes with
  | idle => exact h
  | advance _ _ heffects => exact h.advances_all heffects
  | release _ _ cluster lease => exact h.same rfl rfl rfl rfl
  | @clean _ bk hstored hdeleting hfin cluster lease heffect =>
    have htidy := htidy bk hstored hdeleting hfin
    have hreleased : Consistent { w with control := w.control.setLease cluster lease } :=
      h.same rfl rfl rfl rfl
    exact hreleased.cleans hstored hdeleting ⟨htidy.stopped, htidy.own⟩ heffect

theorem advances_finalizer (he : Relation.ReflTransGen (Advances name) v v')
    (h : ArtifactWorld.hasFinalizer (v.backups name) = true) :
    ArtifactWorld.hasFinalizer (v'.backups name) = true := by
  induction he with
  | refl => exact h
  | tail _ hlast ih =>
    cases hlast with
    | lease cluster lease => exact ih
    | status hstored status =>
      rw [hstored] at ih
      simpa [BackupWorld.setBackup, ArtifactWorld.hasFinalizer] using ih
    | finalizer hstored =>
      simp [BackupWorld.setBackup, ArtifactWorld.hasFinalizer]
    | job _ _ _ _ _ =>
      rw [BackupWorld.spawn_backups]
      exact ih

theorem mem_unfinalized {env : BackupInputs}
    (h : uid ∈ ArtifactWorld.unfinalized v v' (.pass name env)) :
    ∃ bk, v.backups name = some bk ∧ bk.uid = uid ∧
      ArtifactWorld.hasFinalizer (some bk) = true ∧
      ArtifactWorld.hasFinalizer (v'.backups name) = false := by
  unfold ArtifactWorld.unfinalized at h
  cases hstored : v.backups name with
  | none => simp [hstored] at h
  | some bk =>
    simp only [hstored] at h
    split at h
    · rename_i hlost
      simp only [Bool.and_eq_true, Bool.not_eq_true'] at hlost
      exact ⟨bk, rfl, (List.mem_singleton.mp h).symm, hlost.1, hlost.2⟩
    · cases h

theorem Consistent.unfinalized (h : Consistent w) {env : BackupInputs}
    (htidy : ∀ bk, w.control.backups name = some bk → bk.deleting = true →
      finalizerDeleteBackup ∈ bk.finalizers → Tidy w bk) (hdoes : PassDoes name w.control v')
    (huid : uid ∈ ArtifactWorld.unfinalized w.control v' (.pass name env)) :
    Retired v' uid ∧ Clean w uid := by
  obtain ⟨bk, hstored, rfl, hhad, hlost⟩ := mem_unfinalized huid
  have hkept : v'.backups = w.control.backups → False := by
    intro hsame
    rw [hsame, hstored, hhad] at hlost
    cases hlost
  cases hdoes with
  | idle => exact (hkept rfl).elim
  | advance _ _ heffects =>
    rw [← hstored] at hhad
    rw [advances_finalizer heffects hhad] at hlost
    cases hlost
  | release _ _ cluster lease => exact (hkept rfl).elim
  | @clean _ bk' hstored' hdeleting hfin cluster lease heffect =>
    cases hstored.symm.trans hstored'
    obtain ⟨rfl, -, -⟩ := h.named name bk hstored
    have htidy := htidy bk hstored hdeleting hfin
    cases heffect with
    | job _ _ _ => exact (hkept (BackupWorld.spawn_backups ..)).elim
    | drop _ _ => exact (hkept rfl).elim
    | @finalize job hjob hcomplete =>
      obtain ⟨-, hbackup | hcleanup⟩ := h.jobs _ job hjob
      · obtain ⟨m, hname⟩ := hbackup.name
        exact absurd hname.symm (backupJobName_ne_cleanup _ _)
      have hcreator := htidy.own job hjob
      refine ⟨?_, hcreator ▸ hcleanup.done hcomplete⟩
      have hretired := h.retired hstored hdeleting htidy
      have hreleased : Retired (w.control.setLease cluster lease) bk.uid :=
        ⟨hretired.known, hretired.deleting, hretired.stopped⟩
      exact hreleased.evolve (setBackup_evolves hstored fun _ => finalize_successor)

theorem Consistent.control {e : BackupEvent} (h : Consistent w) (htidy : TidyEvent w (.control e))
    (hadmits : w.admits e = true) : Consistent { w with control := w.control.step e } := by
  cases e with
  | create name spec =>
    cases hstored : w.control.backups name with
    | some bk =>
      simp only [BackupWorld.step, hstored]
      exact h
    | none =>
      simp only [BackupWorld.step, hstored]
      exact h.create (of_decide_eq_true hadmits) hstored rfl rfl rfl
  | requestDeletion name =>
    cases hstored : w.control.backups name with
    | none =>
      simp only [BackupWorld.step, hstored]
      exact h
    | some bk =>
      simp only [BackupWorld.step, hstored]
      refine h.setBackup hstored fun bk' hbk' => ?_
      split at hbk'
      · cases hbk'
      · cases hbk'
        exact ⟨rfl, rfl, rfl, fun _ => rfl⟩
  | editCluster name cluster =>
    have hev : Evolves w.control (w.control.step (.editCluster name cluster)) :=
      ⟨Nat.le_refl _, fun m bk hbk => .inr ⟨bk, hbk, .refl bk⟩,
        fun _ job hjob hargs hactive => .inl ⟨job, hjob, hargs, rfl, hactive⟩⟩
    refine h.advance hev (fun m bk hbk => ⟨bk, hbk, .refl bk⟩) (fun m c hc => ?_)
      fun _ _ hjob => .inl hjob
    by_cases hm : m = name
    · exact hm ▸ of_decide_eq_true hadmits
    · exact h.clusters m c (by simpa [BackupWorld.step, hm] using hc)
  | editSecret name keys => exact h.same rfl rfl rfl rfl
  | tick clock => exact h.same rfl rfl rfl rfl
  | jobReport name conditions failedPods =>
    cases hjob : w.control.jobs name with
    | none =>
      simp only [BackupWorld.step, hjob]
      exact h
    | some job =>
      simp only [BackupWorld.step, hjob]
      split
      · rename_i hactive
        exact h.report hjob hactive hadmits rfl
      · exact h
  | jobVanish name => exact h.dropJob name
  | pass name env =>
    exact h.pass htidy (reconcile_does fun bk hbk => (h.named name bk hbk).1)

theorem Consistent.finalize (h : Consistent w) {uids : List Nat}
    (hnew : ∀ uid ∈ uids, Retired w.control uid ∧ Clean w uid) :
    Consistent { w with finalized := w.finalized ++ uids } := by
  refine ⟨h.named, h.unique, h.clusters, fun jobName job hjob => ?_, h.objects, h.pods,
    fun uid huid => ?_⟩
  · obtain ⟨huid, hbackup | hcleanup⟩ := h.jobs jobName job hjob
    · exact ⟨huid, .inl ⟨hbackup.name, hbackup.traced⟩⟩
    · exact ⟨huid, .inr { hcleanup with
        pod := fun pod hpod hsame => { hcleanup.pod pod hpod hsame with } }⟩
  · rcases List.mem_append.mp huid with hold | hnewly
    · exact h.finalized uid hold
    · exact hnew uid hnewly

theorem Consistent.step (h : Consistent w) (htidy : TidyEvent w e) : Consistent (w.step e) := by
  rcases w.step_cases e with hsame | hchange
  · rwa [hsame]
  generalize w.step e = w' at hchange ⊢
  cases hchange with
  | @control e hadmits =>
    refine (h.control htidy hadmits).finalize fun uid huid => ?_
    cases e with
    | pass name env =>
      exact h.unfinalized htidy (reconcile_does fun bk hbk => (h.named name bk hbk).1) huid
    | _ => cases huid
  | @start _ _ job l hjob hlocation =>
    refine h.start hjob hlocation fun hcleanup => ?_
    obtain ⟨name, hname⟩ := hcleanup.name
    exact htidy name job hname hjob l hlocation
  | upload hruns hargs => exact h.upload hruns hargs _ _
  | call hruns => exact h.call hruns

end Events

/-- No backup has been created yet. -/
structure ArtifactWorld.Fresh (w : ArtifactWorld) : Prop where
  clusters : ∀ name cluster, w.control.clusters name = some cluster → Path.Proper name
  backups : ∀ name, w.control.backups name = none
  jobs : ∀ name, w.control.jobs name = none
  origin : ∀ id name, w.origin id name = none
  pods : ∀ name, w.pods name = none
  finalized : w.finalized = []

theorem ArtifactWorld.Fresh.consistent {w : ArtifactWorld} (h : w.Fresh) : Consistent w := by
  refine ⟨fun name bk hbk => ?_, fun a b bkA bkB hA => ?_, h.clusters, fun jobName job hjob => ?_,
    fun id key uid l _ horigin => ?_, fun jobName pod hpod => ?_, fun uid huid => ?_⟩
  · cases (h.backups name).symm.trans hbk
  · cases (h.backups a).symm.trans hA
  · cases (h.jobs jobName).symm.trans hjob
  · cases (h.origin id key).symm.trans horigin
  · cases (h.pods jobName).symm.trans hpod
  · rw [h.finalized] at huid
    cases huid

/-- In a run whose passes over deleted backups and starts of cleanup pods are tidy, a backup
whose finalizer has been removed has no object left, and gets none later. -/
theorem finalized_leaves_nothing {start w : ArtifactWorld} (hfresh : start.Fresh)
    (hrun : Runs ArtifactWorld.step TidyEvent start w) {uid : Nat} (huid : uid ∈ w.finalized) :
    Clean w uid := by
  have hconsistent : Consistent w :=
    hrun.preserves (fun _ _ htidy h => h.step htidy) hfresh.consistent
  exact (hconsistent.finalized uid huid).2

def emptyStores : ArtifactWorld where
  control := bareNamespace
  stores := fun _ => ∅
  origin := fun _ _ => none
  pods := fun _ => none
  finalized := []

def complete : List JobCondition := [{ type := .complete, status := true }]

def backupJob : Str := backupJobName "b1"

def cleanupJob : Str := cleanupJobName "b1"

/-- The Job of `b1` is created and runs. -/
def started (setup : List BackupEvent) (spec : BackupSpec) : List ArtifactEvent :=
  setup.map .control ++
    [.control (.create "b1" spec), .control (.pass "b1" {}), .start backupJob EnvVar.value]

/-- The Job of `b1` stores its set and is complete. -/
def backedUp : List ArtifactEvent :=
  [.upload backupJob (.dump 0) [], .upload backupJob .manifest [],
    .control (.jobReport backupJob complete 0), .control (.pass "b1" {})]

/-- The backup is deleted, its cleanup Job makes a number of calls and is complete. -/
def removed (calls : Nat) : List ArtifactEvent :=
  [.control (.requestDeletion "b1"), .control (.pass "b1" {}),
    .start cleanupJob EnvVar.value] ++
    List.replicate calls (.call cleanupJob .ok) ++
    [.control (.jobReport cleanupJob complete 0), .control (.pass "b1" {})]

/-! ### A thorough deletion -/

/-- All pods work on one set, and all objects are of it. -/
structure AllAt (l : SetLocation) (w : ArtifactWorld) : Prop where
  pods : ∀ jobName pod, w.pods jobName = some pod → pod.location = l
  written : ∀ uid, WrittenTo w uid l

/-- What can be looked up of a tidy event. -/
def looksTidy (l : SetLocation) (w : ArtifactWorld) : ArtifactEvent → Bool
  | .control (.pass name _) => (w.control.backups name).all fun bk => !bk.deleting ||
      (w.control.jobs (backupJobName bk.name)).all (fun job => !job.active) &&
      (w.control.jobs (cleanupJobName bk.name)).all fun job => job.creator = bk.uid
  | .start jobName values => (w.control.jobs jobName).all fun job =>
      match podLocation w.control.secrets values job.toJobTemplate with
      | .ok l' => l' = l
      | .error _ => true
  | _ => true

section AllAt

variable {l : SetLocation} {w : ArtifactWorld}

theorem location_of_looksTidy {values : EnvVar → Str} {l' : SetLocation}
    (h : looksTidy l w (.start jobName values) = true) (hjob : w.control.jobs jobName = some job)
    (hlocation : podLocation w.control.secrets values job.toJobTemplate = .ok l') : l' = l := by
  simpa [looksTidy, hjob, hlocation] using h

theorem AllAt.tidy (h : AllAt l w) (hlooks : looksTidy l w e = true) : TidyEvent w e := by
  match e with
  | .control (.pass name _) =>
    intro bk hbk hdeleting _
    simp only [looksTidy, hbk, hdeleting, Option.all_some, Bool.not_true, Bool.false_or,
      Bool.and_eq_true] at hlooks
    refine ⟨fun job hjob _ => ?_, fun job hjob => ?_⟩
    · simpa [hjob] using hlooks.1
    · simpa [hjob] using hlooks.2
  | .start jobName values =>
    intro _ job _ hjob l' hlocation
    exact location_of_looksTidy hlooks hjob hlocation ▸ h.written job.creator
  | .control (.create ..) | .control (.requestDeletion _) | .control (.editCluster ..)
  | .control (.editSecret ..) | .control (.tick _) | .control (.jobReport ..)
  | .control (.jobVanish _) | .upload .. | .call .. => trivial

theorem AllAt.setPod (h : AllAt l w) {pod : Pod} (hpod : pod.location = l) :
    AllAt l (w.setPod jobName pod) := by
  refine ⟨fun other pod' hpod' => ?_, h.written⟩
  rcases setPod_pods hpod' with hold | ⟨-, rfl⟩
  · exact h.pods other pod' hold
  · exact hpod

theorem AllAt.step (h : AllAt l w) (hlooks : looksTidy l w e = true) : AllAt l (w.step e) := by
  rcases w.step_cases e with hsame | hchange
  · rwa [hsame]
  generalize w.step e = w' at hchange ⊢
  cases hchange with
  | control _ => exact ⟨h.pods, h.written⟩
  | start hjob hlocation => exact h.setPod (location_of_looksTidy hlooks hjob hlocation)
  | upload hruns _ =>
    refine ⟨h.pods, fun uid id key l' hmem horigin => ?_⟩
    rcases uploaded_origin hmem horigin with ⟨hold, horigin⟩ | ⟨-, -, -, rfl⟩
    · exact h.written uid id key l' hold horigin
    · exact h.pods _ _ (running_eq_some hruns).2.1
  | call hruns =>
    have hlocation := h.pods _ _ (running_eq_some hruns).2.1
    refine AllAt.setPod (w := w.setStore _ _) ⟨h.pods, fun uid id key l' hmem => ?_⟩ hlocation
    exact h.written uid id key l' (setStore_stores (fun _ => Backend.answer_objects) hmem)

theorem tidy_of_looks {events : List ArtifactEvent} (h : AllAt l w)
    (hlooks : Runs.Allows ArtifactWorld.step (fun w e => looksTidy l w e = true) w events) :
    Runs ArtifactWorld.step TidyEvent w (w.play events) :=
  Runs.of_allows (hlooks.imp (fun _ _ h hlooks => ⟨h.tidy hlooks, h.step hlooks⟩) h)

end AllAt

/-- A backup of two objects, until its finalizer is gone. -/
def wholeLife : List ArtifactEvent :=
  started (furnish "backups") mainBackup ++ backedUp ++ removed 4

def setOf (id : StoreId) : SetLocation where
  store := id
  root := []
  cluster := "prod"
  backup := "b1"

def backupsBucket : StoreId where
  kind := .s3
  bucket := "backups"

theorem finalized_leaves_nothing_wholeLife :
    1 ∈ (emptyStores.play wholeLife).finalized ∧ Clean (emptyStores.play wholeLife) 1 := by
  have hfresh : emptyStores.Fresh :=
    ⟨fun _ _ h => (nomatch h), fun _ => rfl, fun _ => rfl, fun _ _ => rfl, fun _ => rfl, rfl⟩
  have hnothing : AllAt (setOf backupsBucket) emptyStores := ⟨nofun, nofun⟩
  have huid : 1 ∈ (emptyStores.play wholeLife).finalized := by decide +kernel
  exact ⟨huid, finalized_leaves_nothing hfresh (tidy_of_looks hnothing (by decide +kernel)) huid⟩

/-! ### Deletions that leave something -/

/-- The Job stores its manifest when the finalizer has gone. -/
def lateUpload : List ArtifactEvent :=
  started (furnish "backups") mainBackup ++ removed 3 ++ [.upload backupJob .manifest []]

/-- The storage entry names another bucket by the time of the deletion. -/
def editedStorage : List ArtifactEvent :=
  started (furnish "backups") mainBackup ++ backedUp ++
    (furnish "other").map .control ++ removed 3

/-- A second backup of the name meets the cleanup Job of the first. -/
def reusedName : List ArtifactEvent :=
  started (furnish "backups") mainBackup ++ removed 3 ++
    [.control (.jobVanish backupJob)] ++ started [] mainBackup ++ backedUp ++ removed 0

/-- The storage is a container of the account that the Secret names. -/
def containerStorage : BackupStorageSpec where
  type := .azure
  azure := some { bucket := "backups", credentialsSecret := "creds" }

def containerCluster : PerconaValkeyCluster where
  name := "prod"
  spec := { storages := AList.insert "main" containerStorage ∅ }
  status := { state := .ready }

def setAccount (account : String) : BackupEvent :=
  .editSecret "creds" (some [("AZURE_STORAGE_ACCOUNT", account.toList),
    ("AZURE_STORAGE_KEY", "key")])

/-- The Secret names another account by the time of the deletion. -/
def editedSecret : List ArtifactEvent :=
  started [.editCluster "prod" (some containerCluster), setAccount "first"] mainBackup ++
    backedUp ++ [.control (setAccount "second")] ++ removed 3

def otherBucket : ContainerOptions where
  env := [{ name := "VALKEY_BACKUP_S3_BUCKET", value := "other" }]

/-- The user sends the backup Job, and that Job only, to another bucket. -/
def redirected : List ArtifactEvent :=
  started (furnish "backups") { mainBackup with containerOptions := some otherBucket } ++
    backedUp ++ removed 3

/-- The manifest that the backup wrote is still there, or again. -/
def leavesManifest (id : StoreId) (uid : Nat) (events : List ArtifactEvent) : Bool :=
  let w := emptyStores.play events
  let key := manifestKey "prod" "b1"
  w.finalized.contains uid && (w.stores id).keys.contains key &&
    (w.origin id key).any fun written => written.1 = uid

/-- The run ends with objects of a backup whose finalizer is gone. -/
def LeavesObjects (events : List ArtifactEvent) : Prop :=
  ∃ uid ∈ (emptyStores.play events).finalized, ¬ Clean (emptyStores.play events) uid

theorem leavesObjects_of_manifest {events : List ArtifactEvent} {id : StoreId} {uid : Nat}
    (h : leavesManifest id uid events = true) : LeavesObjects events := by
  simp only [leavesManifest, Bool.and_eq_true, List.contains_iff_mem, Option.any_eq_true,
    decide_eq_true_eq] at h
  obtain ⟨⟨huid, hstored⟩, ⟨_, l⟩, horigin, rfl⟩ := h
  exact ⟨_, huid, fun hclean => hclean _ _ l (AList.mem_keys.mpr hstored) horigin⟩

/-- Five ways to leave an object of a backup whose finalizer is gone. -/
theorem finalized_leaves_objects :
    LeavesObjects lateUpload ∧ LeavesObjects editedStorage ∧ LeavesObjects reusedName ∧
      LeavesObjects editedSecret ∧ LeavesObjects redirected := by
  refine ⟨?_, ?_, ?_, ?_, ?_⟩
  · exact @leavesObjects_of_manifest _ backupsBucket 1 (by decide +kernel)
  · exact @leavesObjects_of_manifest _ backupsBucket 1 (by decide +kernel)
  · exact @leavesObjects_of_manifest _ backupsBucket 4 (by decide +kernel)
  · exact @leavesObjects_of_manifest _ ⟨.azure, "backups", [], "first"⟩ 1
      (by decide +kernel)
  · exact @leavesObjects_of_manifest _ { backupsBucket with bucket := "other" } 1
      (by decide +kernel)

end ValkeyOperator.Backup

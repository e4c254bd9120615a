import ValkeyOperator.Backup.Exclusion
import ValkeyOperator.Backup.Passes

/-! The phase machine of a backup: New, Starting, Running, and a state that is final.

A final state stays. A Job is to be created under the lock, and a backup is to succeed
on a complete set, or on a partial one if it asks for best effort. The controller misses
both in one place each: a Job that has vanished is created again without a look at the
lock, and an unset consistency, which is strict for the Job, passes for best effort when
the verdict is given. -/

namespace ValkeyOperator.Backup
open Text Api

variable {v : BackupWorld} {bk : PerconaValkeyBackup} {e : PhaseEvent} {cluster : Str}

/-! ## What a step may do -/

/-- The pass sees the backup's Job complete and reads the manifest of a complete set, or
of a partial one with best effort asked for. -/
def Completes (w : BackupWorld) (env : BackupInputs) (bk : PerconaValkeyBackup) : Prop :=
  ∃ job man, w.jobs (backupJobName bk.name) = some job ∧ jobConditionTrue job .complete = true ∧
    env.manifest = .ok man ∧
    (man.slotCoverage = "complete" ∨ bk.spec.consistency = some .bestEffort)

/-- The world in which a pass creates the Job of a backup: unless the backup is running
already, the lock has been asked for by then. -/
def whenCreating (env : BackupInputs) (bk : PerconaValkeyBackup) (w : BackupWorld) :
    BackupWorld :=
  if bk.status.state = .running then w else (acquireLock env bk).after w

/-- Backups come and go, and passes are made over them; moreover others write the lock, and
a Job reports what it likes. -/
inductive PhaseEvent where
  | backup (event : BackupEvent)
  | lease (cluster : Str) (lease : Versioned Lease)
  | conditions (name : Str) (conditions : List JobCondition) (failedPods : Int)

def phaseStep (w : BackupWorld) : PhaseEvent → BackupWorld
  | .backup event => w.step event
  | .lease cluster lease => w.setLease cluster lease
  | .conditions name conditions failedPods =>
    w.setJob name ((w.jobs name).map fun job =>
      { job with conditions := conditions, failedPods := failedPods })

/-- A step of the phase machine. -/
structure Lawful (w : BackupWorld) (e : PhaseEvent) : Prop where
  /-- a final state is never left -/
  final : ∀ name bk bk', w.backups name = some bk → isTerminal bk = true →
    (phaseStep w e).backups name = some bk' → bk'.status.state = bk.status.state
  /-- a backup Job is created by a pass over its backup that holds the lock -/
  locked : ∀ name, w.jobs (backupJobName name) = none →
    (phaseStep w e).jobs (backupJobName name) ≠ none →
    ∃ env bk, e = .backup (.pass name env) ∧ w.backups name = some bk ∧
      LockedBy (whenCreating env bk w) bk.spec.clusterName name
  /-- a backup succeeds in a pass that sees it completed -/
  earned : ∀ name bk', (phaseStep w e).backups name = some bk' → bk'.status.state = .succeeded →
    (∃ bk, w.backups name = some bk ∧ bk.status.state = .succeeded) ∨
      ∃ env bk, e = .backup (.pass name env) ∧ w.backups name = some bk ∧ Completes w env bk

/-! ## A pass over a live backup -/

/-- In the course of a pass over a backup: a Job has been created only if `locked`, and the
backup has succeeded only if `earned`. -/
structure Course (name : Str) (locked earned : Prop) (start w : BackupWorld) : Prop where
  others : ∀ m, m ≠ name → w.backups m = start.backups m
  stored : ∀ b, w.backups name = some b → b.status.state = .succeeded → earned
  jobs : ∀ m, start.jobs (backupJobName m) = none → w.jobs (backupJobName m) ≠ none →
    m = name ∧ locked

section Course

variable {locked earned : Prop} {start w : BackupWorld} {env : BackupInputs}
  {bk bk' : PerconaValkeyBackup} {rs : ResolvedStorage}

theorem onLock_course {α : Type} {faults : LeaseReq → Option Fault}
    {program : LeaseCalls (Except Err α)} {name : Str} :
    (onLock faults cluster program).Maintains (Course name locked earned start) :=
  onLock_triple fun _ hw =>
    ⟨fun _ _ => ⟨hw.others, hw.stored, hw.jobs⟩, ⟨hw.others, hw.stored, hw.jobs⟩⟩

theorem writeStatus_course {name : Str} (hname : bk.name = name)
    (hearned : bk.status.state = .succeeded → earned) :
    (writeStatus env bk).Maintains (Course name locked earned start) := by
  subst hname
  refine writeStatus_triple (fun _ hw => hw) fun w fresh hw _ => ?_
  refine ⟨fun m hm => (Function.update_of_ne hm _ _).trans (hw.others m hm), ?_, hw.jobs⟩
  intro b hb hsucceeded
  have hsame : some { fresh with status := bk.status } = some b := by
    simpa [BackupWorld.setBackup] using hb
  cases hsame
  exact hearned hsucceeded

theorem writeStatus_setState {name : Str} {state : BackupState} {text : Str}
    (hname : bk.name = name) (hopen : state ≠ .succeeded) :
    (writeStatus env (setState bk state text)).Maintains (Course name locked earned start) :=
  @writeStatus_course locked earned start env (setState bk state text) name hname
    fun hstate => absurd hstate hopen

theorem terminalFail_course {reason msg : Str} :
    (terminalFail env bk reason msg).Maintains (Course bk.name locked earned start) := by
  refine .bind (.read fun w hw _ => hw) fun now => ?_
  refine .bind (onLock_course.pre fun w hw => hw.1) fun _ => ?_
  exact writeStatus_course rfl fun hfailed => by cases hfailed

theorem createBackupJob_course {jobGet : Option Err} (hlocked : locked) :
    (createBackupJob env jobGet bk rs).Triple (Course bk.name locked earned start)
      (fun bk' w => Course bk.name locked earned start w ∧ bk'.name = bk.name ∧
        bk'.status.state = bk.status.state)
      (Course bk.name locked earned start) := by
  refine createBackupJob_triple (fun _ _ hw => hw) (fun _ hw => ⟨hw, rfl, rfl⟩) (fun _ hw _ => hw)
    ?_ (fun _ _ _ hw => hw) fun _ _ hw => ⟨hw, rfl, rfl⟩
  intro w cluster hw habsent _
  unfold BackupWorld.spawn
  rw [habsent]
  refine ⟨hw.others, hw.stored, fun m hnone hsome => ?_⟩
  by_cases hm : m = bk.name
  · exact ⟨hm, hlocked⟩
  · refine hw.jobs m hnone ?_
    rwa [← Function.update_of_ne (fun he => hm (backupJobName_injective he)) _ w.jobs]

theorem handleJobComplete_succeeded {now : Int} {manifest : Except Err Manifest}
    (h : (handleJobComplete now manifest bk).status.state = .succeeded) :
    ∃ man, manifest = .ok man ∧
      (man.slotCoverage = "complete" ∨ bk.spec.consistency ≠ some .strict) := by
  unfold handleJobComplete at h
  split at h
  · cases h
  · rename_i man
    refine ⟨man, rfl, ?_⟩
    dsimp only at h
    split at h
    · rename_i hcover
      left
      by_contra hgap
      have hcover := Option.some.inj hcover
      rw [if_neg hgap] at hcover
      cases hcover
    · split at h
      · cases h
      · rename_i hrelaxed
        exact .inr hrelaxed

/-- The Job as the pass finds it: it is created if there is none, and the backup succeeds on
one that is complete. -/
theorem watchJob_course (hrecreated : start.jobs (backupJobName bk.name) = none → locked)
    (hcomplete : ∀ job man, start.jobs (backupJobName bk.name) = some job →
      jobConditionTrue job .complete = true → env.manifest = .ok man →
      (man.slotCoverage = "complete" ∨ bk.spec.consistency ≠ some .strict) → earned)
    (hopen : bk.status.state ≠ .succeeded) :
    (watchJob env bk rs).Triple
      (fun w => Course bk.name locked earned start w ∧ w.jobs = start.jobs)
      (fun r w => Course bk.name locked earned start w ∧ r.1.name = bk.name ∧
        (r.1.status.state = .succeeded → earned))
      (Course bk.name locked earned start) := by
  refine .bind (.mapErr (.read fun w hw _ => hw.1)) fun got => ?_
  refine .bind (.read fun w hw _ => hw.1.1) fun now => ?_
  cases got with
  | none =>
    rintro w ⟨⟨⟨hw, hjobs⟩, hread⟩, -⟩
    rw [hjobs] at hread
    refine Action.Triple.bind (createBackupJob_course (hrecreated hread.symm)) (fun bk' => ?_) w hw
    refine .pure fun v ⟨hv, hname, hstate⟩ => ⟨hv, hname, fun hsucceeded => ?_⟩
    exact absurd (hstate.symm.trans hsucceeded) hopen
  | some job =>
    dsimp only
    split
    · rename_i hdone
      refine .pure fun w ⟨⟨⟨hw, hjobs⟩, hread⟩, _⟩ => ⟨hw, handleJobComplete_copy.name, ?_⟩
      rw [hjobs] at hread
      intro hsucceeded
      obtain ⟨man, hman, hcover⟩ := handleJobComplete_succeeded hsucceeded
      exact hcomplete job man hread.symm hdone hman hcover
    split
    · exact .pure fun w hw => ⟨hw.1.1.1, rfl, fun hfailed => by cases hfailed⟩
    split
    · exact .pure fun w hw => ⟨hw.1.1.1, rfl, fun hfailed => by cases hfailed⟩
    · refine .bind (onLock_course.pre fun w hw => hw.1.1.1) fun _ => ?_
      exact .pure fun w hw => ⟨hw, rfl, fun hrunning => by cases hrunning⟩

theorem acquireLock_course (hlocked : ((start.lock bk.spec.clusterName).perform env.acquire
      (acquireClusterLease bk)).1 = .ok true → locked) :
    (acquireLock env bk).Triple
      (fun w => Course bk.name locked earned start w ∧
        w.lock bk.spec.clusterName = start.lock bk.spec.clusterName)
      (fun acquired w => Course bk.name locked earned start w ∧ (acquired = true → locked))
      (Course bk.name locked earned start) := by
  refine onLock_triple fun w ⟨hw, hlock⟩ => ?_
  have hset : ∀ lease, Course bk.name locked earned start (w.setLease bk.spec.clusterName lease) :=
    fun _ => ⟨hw.others, hw.stored, hw.jobs⟩
  rw [hlock]
  refine ⟨fun acquired hacquired => ⟨hset _, fun htrue => ?_⟩, hset _⟩
  rw [htrue] at hacquired
  exact hlocked hacquired

/-- A backup that is starting creates its Job once it has the lock. -/
theorem reconcileStart_course (hlocked : ((start.lock bk.spec.clusterName).perform env.acquire
      (acquireClusterLease bk)).1 = .ok true → locked) :
    (reconcileStart env bk rs).Triple
      (fun w => Course bk.name locked earned start w ∧
        w.lock bk.spec.clusterName = start.lock bk.spec.clusterName)
      (fun _ => Course bk.name locked earned start) (Course bk.name locked earned start) := by
  refine .bind (.read fun w hw _ => hw.1) fun got => ?_
  rcases clusterSnapshotReady bk.spec.clusterName got with e | _ | reason
  · exact .throw fun w hw => hw.1.1
  · refine .bind ((acquireLock_course hlocked).pre fun w hw => hw.1) fun acquired => ?_
    cases acquired with
    | false => exact (writeStatus_setState rfl (by decide)).pre fun w hw => hw.1
    | true =>
      rintro w ⟨hw, hlocked⟩
      refine Action.Triple.handle (createBackupJob_course (hlocked rfl)) (fun bk' => ?_)
        (fun e => ?_) w hw
      · rintro v ⟨hv, hname, -⟩
        exact writeStatus_setState hname (by decide) v hv
      · exact .handle onLock_course (fun _ => terminalFail_course) fun _ => terminalFail_course
  · exact (writeStatus_setState rfl (by decide)).pre fun w hw => hw.1.1

theorem reconcileRunning_course (hrecreated : start.jobs (backupJobName bk.name) = none → locked)
    (hcomplete : ∀ job man, start.jobs (backupJobName bk.name) = some job →
      jobConditionTrue job .complete = true → env.manifest = .ok man →
      (man.slotCoverage = "complete" ∨ bk.spec.consistency ≠ some .strict) → earned)
    (hopen : bk.status.state ≠ .succeeded) :
    (reconcileRunning env bk rs).Triple
      (fun w => Course bk.name locked earned start w ∧ w.jobs = start.jobs)
      (fun _ => Course bk.name locked earned start) (Course bk.name locked earned start) := by
  refine .bind (watchJob_course hrecreated hcomplete hopen) fun r => ?_
  obtain ⟨bk', finished⟩ := r
  rintro w ⟨hw, hname, hearned⟩
  have hwrite := @writeStatus_course locked earned start env bk' bk.name hname hearned
  cases finished with
  | true => exact (Action.Triple.bind onLock_course fun _ => hwrite) w hw
  | false => exact hwrite w hw

theorem advance_course
    (hlocked : bk.status.state ≠ .running → ((start.lock bk.spec.clusterName).perform env.acquire
      (acquireClusterLease bk)).1 = .ok true → locked)
    (hrecreated : bk.status.state = .running → start.jobs (backupJobName bk.name) = none → locked)
    (hcomplete : bk.status.state = .running → ∀ job man,
      start.jobs (backupJobName bk.name) = some job → jobConditionTrue job .complete = true →
      env.manifest = .ok man →
      (man.slotCoverage = "complete" ∨ bk.spec.consistency ≠ some .strict) → earned) :
    (advance env bk).Triple
      (fun w => Course bk.name locked earned start w ∧ w.jobs = start.jobs ∧
        w.lock bk.spec.clusterName = start.lock bk.spec.clusterName)
      (fun _ => Course bk.name locked earned start) (Course bk.name locked earned start) := by
  refine .bind (.read fun w hw _ => hw.1) fun resolved => ?_
  cases resolved with
  | error e => exact terminalFail_course.pre fun w hw => hw.1.1
  | ok rs =>
    -- the copy has the storage filled in, and is the same in everything that is asked of it
    dsimp only
    split
    · rename_i hrunning
      have hopen : (hydrateStorage bk rs).status.state ≠ .succeeded := by
        rw [hrunning]
        decide
      exact (@reconcileRunning_course locked earned start env (hydrateStorage bk rs) rs
        (hrecreated hrunning) (hcomplete hrunning) hopen).pre fun w hw => ⟨hw.1.1, hw.1.2.1⟩
    · rename_i hstarting
      exact (@reconcileStart_course locked earned start env (hydrateStorage bk rs) rs
        (hlocked hstarting)).pre fun w hw => ⟨hw.1.1, hw.1.2.2⟩

theorem ensureFinalizer_sets (hstored : start.backups bk.name = some bk) :
    (ensureFinalizer env bk).Triple (· = start)
      (fun bk' w => ∃ finalizers, bk' = { bk with finalizers := finalizers } ∧
        w = start.setBackup bk.name (some bk'))
      (fun w => ∃ finalizers,
        w = start.setBackup bk.name (some { bk with finalizers := finalizers })) := by
  have hsame : start = start.setBackup bk.name (some bk) := by
    unfold BackupWorld.setBackup
    rw [← hstored, Function.update_eq_self]
  refine ensureFinalizer_triple ?_ ?_ ?_
  · rintro _ w rfl
    exact ⟨bk.finalizers, rfl, hsame⟩
  · rintro w rfl
    exact ⟨bk.finalizers, hsame⟩
  · rintro w _ rfl rfl
    exact ⟨⟨_, rfl, rfl⟩, _, rfl⟩

end Course

/-! ## Every pass -/

/-- What the code misses: a backup that is running finds its Job gone only while it has
the lock, and finds it complete with a partial set only if it says what consistency it
wants. -/
structure Careful (w : BackupWorld) (env : BackupInputs) (bk : PerconaValkeyBackup) : Prop where
  recreated : bk.status.state = .running → w.jobs (backupJobName bk.name) = none →
    LockedBy w bk.spec.clusterName bk.name
  explicit : bk.status.state = .running → bk.spec.consistency = none →
    ∀ job man, w.jobs (backupJobName bk.name) = some job → jobConditionTrue job .complete = true →
      env.manifest = .ok man → man.slotCoverage = "complete"

section Pass

variable {w : BackupWorld} {env : BackupInputs} {name : Str}

/-- A pass that leaves `v` behind. -/
structure Passes (w : BackupWorld) (env : BackupInputs) (name : Str) (v : BackupWorld) :
    Prop where
  course : Course name
    (∃ bk, w.backups name = some bk ∧ LockedBy (whenCreating env bk w) bk.spec.clusterName name)
    (∃ bk, w.backups name = some bk ∧ (bk.status.state = .succeeded ∨ Completes w env bk)) w v
  final : ∀ bk b, w.backups name = some bk → isTerminal bk = true → v.backups name = some b →
    b.status.state = bk.status.state

theorem Passes.lawful (h : Passes w env name ((reconcile env name).after w)) :
    Lawful w (.backup (.pass name env)) := by
  refine ⟨fun m bk bk' hbk hterminal hbk' => ?_, fun m hnone hsome => ?_, fun m bk' hbk' hdone => ?_⟩
  · by_cases hm : m = name
    · subst hm
      exact h.final bk bk' hbk hterminal hbk'
    · have hsame := (h.course.others m hm).symm.trans hbk'
      rw [Option.some.inj (hbk.symm.trans hsame)]
  · obtain ⟨rfl, bk, hbk, hlocked⟩ := h.course.jobs m hnone hsome
    exact ⟨env, bk, rfl, hbk, hlocked⟩
  · by_cases hm : m = name
    · subst hm
      obtain ⟨bk, hbk, hbefore | hcompletes⟩ := h.course.stored bk' hbk' hdone
      · exact .inl ⟨bk, hbk, hbefore⟩
      · exact .inr ⟨env, bk, rfl, hbk, hcompletes⟩
    · exact .inl ⟨bk', (h.course.others m hm).symm.trans hbk', hdone⟩

theorem Passes.of_same (hothers : ∀ m, m ≠ name → v.backups m = w.backups m)
    (hstored : ∀ b, v.backups name = some b →
      ∃ bk, w.backups name = some bk ∧ b.status.state = bk.status.state)
    (hjobs : ∀ m, w.jobs (backupJobName m) = none → v.jobs (backupJobName m) = none) :
    Passes w env name v := by
  refine ⟨⟨hothers, fun b hb hdone => ?_, fun m hnone hsome => absurd (hjobs m hnone) hsome⟩, ?_⟩
  · obtain ⟨bk, hbk, hstate⟩ := hstored b hb
    exact ⟨bk, hbk, .inl (hstate.symm.trans hdone)⟩
  · intro bk b hbk _ hb
    obtain ⟨bk', hbk', hstate⟩ := hstored b hb
    cases hbk.symm.trans hbk'
    exact hstate

theorem Passes.idle : Passes w env name w :=
  .of_same (fun _ _ => rfl) (fun b hb => ⟨b, hb, rfl⟩) fun _ hnone => hnone

theorem after_onLock {α : Type} (faults : LeaseReq → Option Fault) (cluster : Str)
    (program : LeaseCalls (Except Err α)) :
    (onLock faults cluster program).after w =
      w.setLease cluster ((w.lock cluster).perform faults program).2.lease := by
  unfold Action.after onLock
  rcases (w.lock cluster).perform faults program with ⟨e | x, lock⟩
  · rfl
  · rfl

theorem lockedBy_whenCreating (hns : bk.ns = w.ns) (hstate : bk.status.state ≠ .running)
    (h : ((w.lock bk.spec.clusterName).perform env.acquire (acquireClusterLease bk)).1 = .ok true) :
    LockedBy (whenCreating env bk w) bk.spec.clusterName bk.name := by
  have hclaimed := (@acquireClusterLease_claims (w.lock bk.spec.clusterName) env.acquire bk).success h
  rw [leaseHolderID_eq hns] at hclaimed
  unfold whenCreating acquireLock
  rw [if_neg hstate, after_onLock]
  exact .of_claimed hclaimed

theorem pass_live (hstored : w.backups bk.name = some bk) (hns : bk.ns = w.ns)
    (hcareful : Careful w env bk) :
    (do let bk ← ensureFinalizer env bk
        if isTerminal bk then pure () else advance env bk : Action BackupWorld Unit).Triple
      (· = w) (fun _ => Passes w env bk.name) (Passes w env bk.name) := by
  have hsets : ∀ finalizers, Passes w env bk.name
      (w.setBackup bk.name (some { bk with finalizers := finalizers })) := by
    intro finalizers
    refine .of_same (fun m hm => Function.update_of_ne hm _ _) (fun b hb => ?_) fun _ hnone => hnone
    have hsame : some { bk with finalizers := finalizers } = some b := by
      simpa [BackupWorld.setBackup] using hb
    cases hsame
    exact ⟨bk, hstored, rfl⟩
  refine .bind ((ensureFinalizer_sets hstored).failing ?_) fun bk' => ?_
  · rintro v ⟨finalizers, rfl⟩
    exact hsets finalizers
  rintro v ⟨finalizers, rfl, rfl⟩
  have hcourse := (hsets finalizers).course
  have hkeeps : isTerminal bk = false → ∀ v, Course bk.name
      (∃ bk', w.backups bk.name = some bk' ∧
        LockedBy (whenCreating env bk' w) bk'.spec.clusterName bk.name)
      (∃ bk', w.backups bk.name = some bk' ∧
        (bk'.status.state = .succeeded ∨ Completes w env bk')) w v → Passes w env bk.name v := by
    refine fun hopen v hv => ⟨hv, fun b _ hb hterminal _ => ?_⟩
    cases hstored.symm.trans hb
    rw [hopen] at hterminal
    cases hterminal
  by_cases hterminal : isTerminal bk = true
  · have hdone : isTerminal { bk with finalizers := finalizers } = true := hterminal
    rw [if_pos hdone]
    exact hsets finalizers
  · have hopen : ¬ isTerminal { bk with finalizers := finalizers } = true := hterminal
    rw [if_neg hopen]
    have hpasses := hkeeps (by simpa using hterminal)
    refine (@advance_course _ _ w env { bk with finalizers := finalizers } ?_ ?_ ?_).post
      (fun _ => hpasses) hpasses _ ⟨hcourse, rfl, rfl⟩
    · intro hstate hacquired
      exact ⟨bk, hstored, lockedBy_whenCreating hns hstate hacquired⟩
    · intro hrunning hnone
      refine ⟨bk, hstored, ?_⟩
      have hlock := hcareful.recreated hrunning hnone
      unfold whenCreating
      rwa [if_pos hrunning]
    · intro hrunning job man hjob hdone hman hcover
      refine ⟨bk, hstored, .inr ⟨job, man, hjob, hdone, hman, ?_⟩⟩
      rcases hcover with hcomplete | hrelaxed
      · exact .inl hcomplete
      · cases hconsistency : bk.spec.consistency with
        | none => exact .inl (hcareful.explicit hrunning hconsistency job man hjob hdone hman)
        | some consistency =>
          cases consistency with
          | strict => exact absurd hconsistency hrelaxed
          | bestEffort => exact .inr rfl

/-- What is done for a backup that is being deleted changes neither its state nor a
backup Job. -/
theorem Cleans.passes {lease : Versioned Lease} (hstored : w.backups bk.name = some bk)
    (h : Cleans bk (w.setLease cluster lease) v) : Passes w env bk.name v := by
  cases h with
  | job hcluster hstorage habsent =>
    refine .of_same (fun m _ => by rw [BackupWorld.spawn_backups]; rfl) (fun b hb => ?_) ?_
    · rw [BackupWorld.spawn_backups] at hb
      exact ⟨b, hb, rfl⟩
    · intro m hnone
      unfold BackupWorld.spawn
      rw [habsent]
      exact (Function.update_of_ne (backupJobName_ne_cleanup m bk.name) _ _).trans hnone
  | drop hjob hfailed =>
    refine .of_same (fun _ _ => rfl) (fun b hb => ⟨b, hb, rfl⟩) fun m hnone => ?_
    exact (Function.update_of_ne (backupJobName_ne_cleanup m bk.name) _ _).trans hnone
  | finalize hjob hcomplete =>
    refine .of_same (fun m hm => Function.update_of_ne hm _ _) (fun b hb => ?_) fun _ hnone => hnone
    have hleft := (Function.update_self (β := fun _ => Option PerconaValkeyBackup) bk.name _
      w.backups).symm.trans hb
    split at hleft
    · cases hleft
    · cases hleft
      exact ⟨bk, hstored, rfl⟩

theorem PassDoes.passes (hstored : w.backups bk.name = some bk) (hdeleting : bk.deleting = true)
    (h : PassDoes bk.name w v) : Passes w env bk.name v := by
  cases h with
  | idle => exact .idle
  | advance hread hlive heffects =>
    cases hstored.symm.trans hread
    rw [hdeleting] at hlive
    cases hlive
  | release hread _ cluster lease =>
    exact .of_same (fun _ _ => rfl) (fun b hb => ⟨b, hb, rfl⟩) fun _ hnone => hnone
  | clean hread _ _ cluster lease heffect =>
    cases hstored.symm.trans hread
    exact heffect.passes hstored

/-- A pass keeps to the phase machine unless it meets what the code misses. -/
theorem pass_lawful (hnamed : Named w)
    (hcareful : ∀ bk, w.backups name = some bk → bk.deleting = false → Careful w env bk) :
    Lawful w (.backup (.pass name env)) := by
  refine Passes.lawful ?_
  refine (reconcile_triple .idle fun bk hread => ?_).after rfl
  obtain ⟨rfl, hns⟩ := hnamed name bk hread
  split
  · rename_i hdeleting
    have hdone : ∀ v, PassDoes bk.name w v → Passes w env bk.name v :=
      fun v hv => hv.passes hread hdeleting
    exact (handleDeletion_does hread hdeleting).post (fun _ => hdone) hdone
  · rename_i hlive
    exact pass_live hread hns (hcareful bk hread (by simpa using hlive))

end Pass

/-! ## Runs -/

section Runs

variable {w v : BackupWorld} {name : Str}

theorem Named.spawn (h : Named w) (creator : Nat) (template : JobTemplate) :
    Named (w.spawn name creator template) := by
  unfold BackupWorld.spawn
  split
  · exact h
  · exact h

theorem Advances.named (hw : Named w) (h : Advances name w v) : Named v := by
  cases h with
  | lease cluster lease => exact hw
  | status hstored status => exact hw.update hstored rfl rfl
  | finalizer hstored => exact hw.update hstored rfl rfl
  | job => exact hw.spawn _ _

theorem Cleans.named (hw : Named w) (hstored : w.backups bk.name = some bk) (h : Cleans bk w v) :
    Named v := by
  cases h with
  | job => exact hw.spawn _ _
  | drop => exact hw
  | finalize =>
    split
    · exact hw.setBackup fun b hb => by cases hb
    · exact hw.update hstored rfl rfl

theorem PassDoes.named (hw : Named w) (h : PassDoes name w v) : Named v := by
  cases h with
  | idle => exact hw
  | advance hstored hlive heffects =>
    induction heffects with
    | refl => exact hw
    | tail _ heffect ih => exact heffect.named ih
  | release => exact hw
  | clean hstored hdeleting hfin cluster lease heffect =>
    obtain ⟨rfl, -⟩ := hw name _ hstored
    exact heffect.named (w := w.setLease cluster lease) hw hstored

theorem Named.step (h : Named w) (e : PhaseEvent) : Named (phaseStep w e) := by
  cases e with
  | lease cluster lease => exact h
  | conditions name conditions failedPods => exact h
  | backup event =>
    cases event with
    | create name spec =>
      simp only [phaseStep, BackupWorld.step]
      split
      · exact h
      · refine h.setBackup fun b hb => ?_
        cases hb
        exact ⟨rfl, rfl⟩
    | requestDeletion name =>
      simp only [phaseStep, BackupWorld.step]
      split
      · exact h
      · rename_i bk hstored
        split
        · exact h.setBackup fun b hb => by cases hb
        · exact h.update hstored rfl rfl
    | editCluster name cluster => exact h
    | editSecret name keys => exact h
    | tick clock => exact h
    | jobReport name conditions failedPods =>
      simp only [phaseStep, BackupWorld.step]
      split
      · exact h
      · split
        · exact h
        · exact h
    | jobVanish name => exact h
    | pass name env => exact (reconcile_does fun bk hbk => (h name bk hbk).1).named h

theorem Lawful.of_quiet (hbackups : ∀ m b, (phaseStep w e).backups m = some b →
      (w.backups m = none ∧ b.status.state = .new) ∨
        ∃ bk, w.backups m = some bk ∧ b.status.state = bk.status.state)
    (hjobs : ∀ m, w.jobs m = none → (phaseStep w e).jobs m = none) : Lawful w e := by
  refine ⟨fun m bk b hbk _ hb => ?_, fun m hnone hsome => absurd (hjobs _ hnone) hsome,
    fun m b hb hdone => ?_⟩
  · rcases hbackups m b hb with ⟨hnone, -⟩ | ⟨bk', hbk', hstate⟩
    · cases hbk.symm.trans hnone
    · cases hbk.symm.trans hbk'
      exact hstate
  · rcases hbackups m b hb with ⟨-, hnew⟩ | ⟨bk, hbk, hstate⟩
    · rw [hnew] at hdone
      cases hdone
    · exact .inl ⟨bk, hbk, hstate.symm.trans hdone⟩

theorem Lawful.of_backups (hbackups : (phaseStep w e).backups = w.backups)
    (hjobs : ∀ m, w.jobs m = none → (phaseStep w e).jobs m = none) : Lawful w e :=
  .of_quiet (fun _ b hb => .inr ⟨b, hbackups ▸ hb, rfl⟩) hjobs

theorem create_lawful (name : Str) (spec : BackupSpec) :
    Lawful w (.backup (.create name spec)) := by
  refine .of_quiet (fun m b hb => ?_) fun m hnone => ?_
  · simp only [phaseStep, BackupWorld.step] at hb
    split at hb
    · exact .inr ⟨b, hb, rfl⟩
    · rename_i hnone
      by_cases hm : m = name
      · subst hm
        have hnew : some { name := m, ns := w.ns, uid := w.nextUid, spec := spec } = some b := by
          simpa [BackupWorld.setBackup] using hb
        cases hnew
        exact .inl ⟨hnone, rfl⟩
      · exact .inr ⟨b, by simpa [BackupWorld.setBackup, hm] using hb, rfl⟩
  · simp only [phaseStep, BackupWorld.step]
    split
    · exact hnone
    · exact hnone

theorem requestDeletion_lawful (name : Str) : Lawful w (.backup (.requestDeletion name)) := by
  refine .of_quiet (fun m b hb => .inr ?_) fun m hnone => ?_
  · simp only [phaseStep, BackupWorld.step] at hb
    split at hb
    · exact ⟨b, hb, rfl⟩
    · rename_i bk hstored
      by_cases hm : m = name
      · subst hm
        split at hb
        · simp [BackupWorld.setBackup] at hb
        · have hsame : some { bk with deleting := true } = some b := by
            simpa [BackupWorld.setBackup] using hb
          cases hsame
          exact ⟨bk, hstored, rfl⟩
      · exact ⟨b, by simpa [BackupWorld.setBackup, hm] using hb, rfl⟩
  · simp only [phaseStep, BackupWorld.step]
    split
    · exact hnone
    · exact hnone

theorem setJob_none {job : Option Job} {m : Str} (h : w.jobs name = none → job = none)
    (hnone : w.jobs m = none) : (w.setJob name job).jobs m = none := by
  by_cases hm : m = name
  · subst hm
    exact (Function.update_self ..).trans (h hnone)
  · exact (Function.update_of_ne hm _ _).trans hnone

theorem jobReport_lawful (name : Str) (conditions : List JobCondition) (failedPods : Int) :
    Lawful w (.backup (.jobReport name conditions failedPods)) := by
  refine .of_backups ?_ fun m hnone => ?_
  · simp only [phaseStep, BackupWorld.step]
    split
    · rfl
    · split
      · rfl
      · rfl
  · simp only [phaseStep, BackupWorld.step]
    split
    · exact hnone
    · rename_i job hjob
      split
      · exact setJob_none (fun habsent => by cases hjob.symm.trans habsent) hnone
      · exact hnone

/-- What a step of the run must not meet. -/
def CarefulStep (w : BackupWorld) : PhaseEvent → Prop
  | .backup (.pass name env) =>
    ∀ bk, w.backups name = some bk → bk.deleting = false → Careful w env bk
  | _ => True

theorem Named.lawful (hw : Named w) (he : CarefulStep w e) : Lawful w e := by
  cases e with
  | lease cluster lease => exact .of_backups rfl fun _ hnone => hnone
  | conditions name conditions failedPods =>
    exact .of_backups rfl fun _ hnone => setJob_none (fun habsent => by rw [habsent]; rfl) hnone
  | backup event =>
    cases event with
    | create name spec => exact create_lawful name spec
    | requestDeletion name => exact requestDeletion_lawful name
    | editCluster name cluster => exact .of_backups rfl fun _ hnone => hnone
    | editSecret name keys => exact .of_backups rfl fun _ hnone => hnone
    | tick clock => exact .of_backups rfl fun _ hnone => hnone
    | jobReport name conditions failedPods => exact jobReport_lawful name conditions failedPods
    | jobVanish name => exact .of_backups rfl fun _ hnone => setJob_none (fun _ => rfl) hnone
    | pass name env => exact pass_lawful hw he

end Runs

/-- The phase machine is sound: in every run whose passes meet none of what the code misses,
final states stay, Jobs are created under the lock, and backups succeed on what they ask
for. -/
theorem phase_machine_lawful {start w : BackupWorld} (hfresh : start.Fresh)
    (hruns : Runs phaseStep CarefulStep start w) {e : PhaseEvent} (he : CarefulStep w e) :
    Lawful w e := by
  have hnamed : Named w := by
    refine hruns.preserves (fun v e _ hv => hv.step e) fun name bk hbk => ?_
    cases (hfresh.backups name).symm.trans hbk
  exact hnamed.lawful he

/-! A backup whose Job is through. -/

/-- What a Job that could not read all shards leaves. -/
def partialSet : Manifest where
  cluster := "prod"
  backupName := "b1"
  mode := "cluster"
  crVersion := []
  engineVersion := []
  createdAt := []
  consistency := "strict"
  slotCoverage := "partial"

def jobThrough (consistency : Option BackupConsistency) : List BackupEvent :=
  furnish "backups" ++
    [.create "b1" { mainBackup with consistency := consistency }, .pass "b1" {},
      .jobReport (backupJobName "b1") [{ type := .complete, status := true }] 0]

def afterJob (consistency : Option BackupConsistency) : BackupWorld :=
  ((jobThrough consistency).map .backup).foldl phaseStep bareNamespace

/-- The pass that reads the partial set. -/
def partialPass : PhaseEvent := .backup (.pass "b1" { manifest := .ok partialSet })

theorem jobThrough_careful (consistency : Option BackupConsistency) :
    Runs phaseStep CarefulStep bareNamespace (afterJob consistency) := by
  refine Runs.of_allows ⟨trivial, trivial, trivial, fun bk hstored _ => ?_, trivial, trivial⟩
  have hbk : { name := "b1", ns := "db", uid := 1
               spec := { mainBackup with consistency := consistency } } = bk :=
    Option.some.inj hstored
  subst hbk
  exact ⟨fun hrunning => (by cases hrunning), fun hrunning => (by cases hrunning)⟩

/-- Best effort is asked for, and the backup succeeds on the partial set. -/
theorem phase_machine_lawful_bestEffort :
    ((phaseStep (afterJob (some .bestEffort)) partialPass).backups "b1").map
      (·.status.state) = some .succeeded ∧
    Lawful (afterJob (some .bestEffort)) partialPass := by
  have hfacts : ((phaseStep (afterJob (some .bestEffort)) partialPass).backups "b1").map
        (·.status.state) = some .succeeded ∧
      ((afterJob (some .bestEffort)).backups "b1").map
        (fun bk => (bk.name, bk.spec.consistency)) = some ("b1".toList, some .bestEffort) ∧
      ((afterJob (some .bestEffort)).jobs (backupJobName "b1")).isSome = true := by
    decide +kernel
  obtain ⟨hsucceeded, hstored, hjob⟩ := hfacts
  refine ⟨hsucceeded, phase_machine_lawful ⟨fun _ => rfl, fun _ => rfl⟩
    (jobThrough_careful (some .bestEffort)) fun bk hbk _ => ?_⟩
  rw [hbk] at hstored
  obtain ⟨hname, hconsistency⟩ := Prod.mk.inj (Option.some.inj hstored)
  constructor
  · intro _ hnone
    rw [hname] at hnone
    rw [hnone] at hjob
    cases hjob
  · intro _ hunset
    rw [hconsistency] at hunset
    cases hunset

/-- The Job of `b1` vanishes, its lock runs out, and `b2` takes it. -/
def lockLost : List BackupEvent :=
  furnish "backups" ++
    [.create "b1" mainBackup, .pass "b1" {},
      .jobVanish (backupJobName "b1"), .tick (60 * second),
      .create "b2" mainBackup, .pass "b2" {}]

def afterLoss : BackupWorld := (lockLost.map .backup).foldl phaseStep bareNamespace

theorem lockedBy_other {w : BackupWorld} {name other : Str}
    (h : ((w.leases cluster).stored.map (·.holderIdentity)) = some (some (holderID w.ns other)))
    (hne : name ≠ other) : ¬ LockedBy w cluster name := by
  rintro ⟨l, hstored, hid, -⟩
  rw [hstored, Option.map_some, hid] at h
  exact hne (holderID_injective (Option.some.inj (Option.some.inj h)))

/-- Without a consistency the backup succeeds on the partial set of a strict Job, and the
Job of a backup that has lost the lock is created again beside the new holder's. -/
theorem phase_machine_slips :
    Runs phaseStep (fun _ _ => True) bareNamespace (afterJob none) ∧
    ((phaseStep (afterJob none) partialPass).backups "b1").map
      (·.status.state) = some .succeeded ∧
    ¬ Lawful (afterJob none) partialPass ∧
    Runs phaseStep (fun _ _ => True) bareNamespace afterLoss ∧
    JobRuns (phaseStep afterLoss (.backup (.pass "b1" {}))) "b1" ∧
    JobRuns (phaseStep afterLoss (.backup (.pass "b1" {}))) "b2" ∧
    ¬ Lawful afterLoss (.backup (.pass "b1" {})) := by
  have hunset : ((phaseStep (afterJob none) partialPass).backups "b1").map
        (·.status.state) = some .succeeded ∧
      ((afterJob none).backups "b1").map
        (fun bk => (bk.status.state, bk.spec.consistency)) = some (.running, none) := by
    decide +kernel
  have hlost : (afterLoss.backups "b1").map
        (fun bk => (bk.status.state, bk.spec.clusterName)) = some (.running, "prod".toList) ∧
      ((afterLoss.leases "prod").stored.map (·.holderIdentity)) =
        some (some (holderID afterLoss.ns "b2")) ∧
      (afterLoss.jobs (backupJobName "b1")).isNone = true ∧
      ((phaseStep afterLoss (.backup (.pass "b1" {}))).jobs
        (backupJobName "b1")).map Job.active = some true ∧
      ((phaseStep afterLoss (.backup (.pass "b1" {}))).jobs
        (backupJobName "b2")).map Job.active = some true := by
    decide +kernel
  obtain ⟨hsucceeded, hstored⟩ := hunset
  obtain ⟨hstored', hholder, hnone, hfirst, hsecond⟩ := hlost
  refine ⟨Runs.of_events (fun _ _ => trivial) _ _, hsucceeded, fun hlawful => ?_,
    Runs.of_events (fun _ _ => trivial) _ _, jobRuns_of_active hfirst, jobRuns_of_active hsecond,
    fun hlawful => ?_⟩
  · obtain ⟨b, hb, hdone⟩ := Option.map_eq_some_iff.mp hsucceeded
    rcases hlawful.earned "b1" b hb hdone with ⟨bk, hbk, hbefore⟩ | ⟨env, bk, he, hbk, hcompletes⟩
    · rw [hbk] at hstored
      have hrunning := (Prod.mk.inj (Option.some.inj hstored)).1
      cases hrunning.symm.trans hbefore
    · rw [hbk] at hstored
      have hconsistency := (Prod.mk.inj (Option.some.inj hstored)).2
      cases he
      obtain ⟨job, man, -, -, hman, hcover | hbest⟩ := hcompletes
      · cases hman
        exact absurd hcover (by decide)
      · cases hconsistency.symm.trans hbest
  · obtain ⟨job, hjob, -⟩ := jobRuns_of_active hfirst
    obtain ⟨env, bk, he, hbk, hlocked⟩ := hlawful.locked "b1" (by simpa using hnone)
      (by rw [hjob]; simp)
    rw [hbk] at hstored'
    obtain ⟨hrunning, hcluster⟩ := Prod.mk.inj (Option.some.inj hstored')
    unfold whenCreating at hlocked
    rw [if_pos hrunning] at hlocked
    rw [← hcluster] at hholder
    exact lockedBy_other hholder (by decide) hlocked

end ValkeyOperator.Backup

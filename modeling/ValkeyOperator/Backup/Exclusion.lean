import ValkeyOperator.Backup.Controller

/-! Backups of one cluster exclude each other.

Whoever runs a Job is to hold the lock until the Job is over. The controller keeps
to that on its straight way, but there are exits on which it lets go of the lock
without a look at the Job: a storage that cannot be resolved at the moment, a
deletion, a Job that was found or created under an error; and a vanished Job is
created again without a look at the lock. -/

namespace ValkeyOperator.Backup
open Text Api

variable {w : BackupWorld} {lock : LeaseWorld} {rs : ResolvedStorage} {cluster cluster' : Str}

/-! ## The invariant -/

def holderID (ns name : Str) : Str := "backup/" ++ ns ++ '/' :: name

/-- The backup's Job is there and neither complete nor failed. -/
def JobRuns (w : BackupWorld) (name : Str) : Prop :=
  ∃ job, w.jobs (backupJobName name) = some job ∧ job.active = true

/-- The lease of the cluster names the backup, be it valid or not. -/
def Names (w : BackupWorld) (cluster name : Str) : Prop :=
  ∃ l, (w.leases cluster).stored = some l ∧ l.holderIdentity = some (holderID w.ns name)

/-- The lock of the cluster is the backup's and valid. -/
def LockedBy (w : BackupWorld) (cluster name : Str) : Prop :=
  ∃ l, (w.leases cluster).stored = some l ∧ l.holderIdentity = some (holderID w.ns name) ∧
    held l w.clock = true

/-- A running Job belongs to an unfinished backup; if locks are renewed in time, it
holds the lock. -/
def Sound (timely : Prop) (w : BackupWorld) (name : Str) : Prop :=
  ∀ job, w.jobs (backupJobName name) = some job → job.active = true →
    ∃ bk, w.backups name = some bk ∧ finalizerDeleteBackup ∈ bk.finalizers ∧
      isTerminal bk = false ∧ job.params.cluster = bk.spec.clusterName ∧
      (timely → LockedBy w bk.spec.clusterName name)

def Named (w : BackupWorld) : Prop :=
  ∀ name bk, w.backups name = some bk → bk.name = name ∧ bk.ns = w.ns

structure Exclusive (timely : Prop) (w : BackupWorld) : Prop where
  named : Named w
  sound : ∀ name, Sound timely w name

theorem holderID_injective {ns a b : Str} (h : holderID ns a = holderID ns b) : a = b :=
  (List.cons.inj (List.append_cancel_left h)).2

theorem leaseHolderID_eq {bk : PerconaValkeyBackup} {ns : Str} (h : bk.ns = ns) :
    leaseHolderID bk = holderID ns bk.name := by
  rw [← h]
  rfl

theorem LockedBy.unique {a b : Str} (ha : LockedBy w cluster a) (hb : LockedBy w cluster b) :
    a = b := by
  obtain ⟨l, hl, hida, -⟩ := ha
  obtain ⟨l', hl', hidb, -⟩ := hb
  cases hl.symm.trans hl'
  exact holderID_injective (Option.some.inj (hida.symm.trans hidb))

theorem Sound.transfer {timely : Prop} {w' : BackupWorld} {name : Str} (h : Sound timely w name)
    (hjob : w'.jobs (backupJobName name) = w.jobs (backupJobName name))
    (hbk : w'.backups name = w.backups name)
    (hlock : timely → ∀ cluster, LockedBy w cluster name → LockedBy w' cluster name) :
    Sound timely w' name := by
  intro job hread hactive
  obtain ⟨bk, hstored, hfin, hopen, hcluster, hheld⟩ := h job (hjob ▸ hread) hactive
  exact ⟨bk, hbk.trans hstored, hfin, hopen, hcluster, fun ht => hlock ht _ (hheld ht)⟩

theorem Sound.of_idle {timely : Prop} {name : Str} (h : ¬ JobRuns w name) : Sound timely w name :=
  fun job hread hactive => absurd ⟨job, hread, hactive⟩ h

/-! ## What the calls of a pass change -/

section Frame

variable {timely : Prop} {w : BackupWorld} {name other : Str}

theorem Sound.setBackup (h : Sound timely w other) (hne : other ≠ name)
    (bk : Option PerconaValkeyBackup) : Sound timely (w.setBackup name bk) other :=
  h.transfer rfl (Function.update_of_ne hne _ _) fun _ _ hlock => hlock

theorem Sound.setJob (h : Sound timely w other) {jobName : Str}
    (hne : backupJobName other ≠ jobName) (job : Option Job) :
    Sound timely (w.setJob jobName job) other :=
  h.transfer (Function.update_of_ne hne _ _) rfl fun _ _ hlock => hlock

theorem Named.setBackup (h : Named w) {bk : Option PerconaValkeyBackup}
    (hbk : ∀ b, bk = some b → b.name = name ∧ b.ns = w.ns) : Named (w.setBackup name bk) := by
  intro m b hb
  by_cases hm : m = name
  · subst hm
    exact hbk b (by simpa [BackupWorld.setBackup] using hb)
  · exact h m b (by simpa [BackupWorld.setBackup, hm] using hb)

theorem Named.update {bk b : PerconaValkeyBackup} (h : Named w) (hstored : w.backups name = some bk)
    (hname : b.name = bk.name) (hns : b.ns = bk.ns) : Named (w.setBackup name (some b)) := by
  refine h.setBackup fun b' hb' => ?_
  cases hb'
  rw [hname, hns]
  exact h name bk hstored

theorem LockedBy.claims {success : Prop} (h : LockedBy w cluster' other)
    (hclaims : Claims (holderID w.ns name) success (w.lock cluster) lock) :
    LockedBy (w.setLease cluster lock.lease) cluster' other := by
  obtain ⟨l, hstored, hid, hheld⟩ := h
  by_cases hc : cluster' = cluster
  · subst hc
    rcases hclaims.lease with hsame | hclaimed
    · exact ⟨l, by simp [BackupWorld.setLease, hsame, BackupWorld.lock, hstored], hid, hheld⟩
    · obtain ⟨l', hstored', hid', hheld'⟩ := hclaimed.taken
      have hown : other = name := holderID_injective
        (Option.some.inj (hid.symm.trans (hclaimed.free l hstored hheld)))
      exact ⟨l', by simpa [BackupWorld.setLease] using hstored', hown ▸ hid', hheld'⟩
  · exact ⟨l, by simpa [BackupWorld.setLease, hc] using hstored, hid, hheld⟩

theorem Names.claims {success : Prop} (h : Names w cluster' name)
    (hclaims : Claims (holderID w.ns name) success (w.lock cluster) lock) :
    Names (w.setLease cluster lock.lease) cluster' name := by
  obtain ⟨l, hstored, hid⟩ := h
  by_cases hc : cluster' = cluster
  · subst hc
    rcases hclaims.lease with hsame | hclaimed
    · exact ⟨l, by simp [BackupWorld.setLease, hsame, BackupWorld.lock, hstored], hid⟩
    · obtain ⟨l', hstored', hid', -⟩ := hclaimed.taken
      exact ⟨l', by simpa [BackupWorld.setLease] using hstored', hid'⟩
  · exact ⟨l, by simpa [BackupWorld.setLease, hc] using hstored, hid⟩

theorem LockedBy.of_claimed
    (h : Claimed (holderID w.ns name) w.clock (w.leases cluster) lock.lease) :
    LockedBy (w.setLease cluster lock.lease) cluster name := by
  obtain ⟨l, hstored, hid, hheld⟩ := h.taken
  exact ⟨l, by simpa [BackupWorld.setLease] using hstored, hid, hheld⟩

theorem LockedBy.clears (h : LockedBy w cluster' other) (hne : other ≠ name)
    (hclears : Clears (holderID w.ns name) (w.lock cluster) lock) :
    LockedBy (w.setLease cluster lock.lease) cluster' other := by
  obtain ⟨l, hstored, hid, hheld⟩ := h
  by_cases hc : cluster' = cluster
  · subst hc
    rcases hclears.lease with hsame | ⟨l', hstored', hid'⟩
    · exact ⟨l, by simp [BackupWorld.setLease, hsame, BackupWorld.lock, hstored], hid, hheld⟩
    · cases hstored.symm.trans hstored'
      exact absurd (holderID_injective (Option.some.inj (hid.symm.trans hid'))) hne
  · exact ⟨l, by simpa [BackupWorld.setLease, hc] using hstored, hid, hheld⟩

end Frame

/-! ## The pass of one backup -/

/-- The Job of the backup `bk` of the pass is not running. -/
structure Idle (timely : Prop) (bk : PerconaValkeyBackup) (w : BackupWorld) : Prop where
  named : Named w
  others : ∀ m, m ≠ bk.name → Sound timely w m
  ns : bk.ns = w.ns
  idle : ¬ JobRuns w bk.name

/-- The backup is not over, and if its Job runs it holds the lock. It still has the
locks it `owned`. -/
structure Live (timely : Prop) (owned : Str → Prop) (bk : PerconaValkeyBackup) (w : BackupWorld) :
    Prop where
  named : Named w
  others : ∀ m, m ≠ bk.name → Sound timely w m
  ns : bk.ns = w.ns
  stored : ∃ b, w.backups bk.name = some b ∧ b.spec = bk.spec ∧
    finalizerDeleteBackup ∈ b.finalizers ∧ isTerminal b = false
  locked : ∀ job, w.jobs (backupJobName bk.name) = some job → job.active = true →
    job.params.cluster = bk.spec.clusterName ∧ (timely → LockedBy w bk.spec.clusterName bk.name)
  kept : ∀ cluster, owned cluster → Names w cluster bk.name

/-- A copy with another status. -/
structure Copy (bk bk' : PerconaValkeyBackup) : Prop where
  name : bk'.name = bk.name
  ns : bk'.ns = bk.ns
  spec : bk'.spec = bk.spec

/-- The backup may create its Job. -/
structure Vacant (timely : Prop) (owned : Str → Prop) (bk : PerconaValkeyBackup)
    (w : BackupWorld) : Prop where
  live : Live timely owned bk w
  absent : w.jobs (backupJobName bk.name) = none
  locked : timely → LockedBy w bk.spec.clusterName bk.name

/-- No Job has been created, unless the answer to its creation got lost. -/
def Uncreated (timely : Prop) (owned : Str → Prop) (env : BackupInputs)
    (bk : PerconaValkeyBackup) (w : BackupWorld) : Prop :=
  Idle timely bk w ∨ (Live timely owned bk w ∧ ∃ e, env.jobCreate = some (.lost e))

/-- What a pass leaves behind. -/
structure Passed (timely : Prop) (owned : Str → Prop) (name : Str) (w : BackupWorld) : Prop where
  exclusive : Exclusive timely w
  kept : JobRuns w name → ∀ cluster, owned cluster → Names w cluster name

section Pass

variable {timely : Prop} {owned : Str → Prop} {env : BackupInputs} {bk bk' : PerconaValkeyBackup}
  {name : Str} {w : BackupWorld}

theorem Idle.passed (h : Idle timely bk w) : Passed timely owned bk.name w := by
  refine ⟨⟨h.named, fun m => ?_⟩, fun hruns => absurd hruns h.idle⟩
  by_cases hm : m = bk.name
  · subst hm
    exact .of_idle h.idle
  · exact h.others m hm

theorem Live.passed (h : Live timely owned bk w) : Passed timely owned bk.name w := by
  refine ⟨⟨h.named, fun m => ?_⟩, fun _ => h.kept⟩
  by_cases hm : m = bk.name
  · subst hm
    intro job hread hactive
    obtain ⟨b, hstored, hspec, hfin, hopen⟩ := h.stored
    obtain ⟨hcluster, hlock⟩ := h.locked job hread hactive
    rw [← hspec] at hcluster hlock
    exact ⟨b, hstored, hfin, hopen, hcluster, hlock⟩
  · exact h.others m hm

theorem Live.idle (h : Live timely owned bk w) (hidle : ¬ JobRuns w bk.name) :
    Idle timely bk w :=
  ⟨h.named, h.others, h.ns, hidle⟩

theorem Idle.copy (h : Idle timely bk w) (hcopy : Copy bk bk') : Idle timely bk' w := by
  refine ⟨h.named, ?_, hcopy.ns.trans h.ns, ?_⟩
  · rw [hcopy.name]
    exact h.others
  · rw [hcopy.name]
    exact h.idle

theorem Live.copy (h : Live timely owned bk w) (hcopy : Copy bk bk') : Live timely owned bk' w := by
  refine ⟨h.named, ?_, hcopy.ns.trans h.ns, ?_, ?_, ?_⟩
  · rw [hcopy.name]
    exact h.others
  · rw [hcopy.name, hcopy.spec]
    exact h.stored
  · rw [hcopy.name, hcopy.spec]
    exact h.locked
  · rw [hcopy.name]
    exact h.kept

theorem writeStatus_idle (hcopy : Copy bk bk') :
    (writeStatus env bk').Maintains (Idle timely bk) := by
  refine writeStatus_triple (fun _ hw => hw) fun w fresh hw hread => ?_
  rw [hcopy.name] at hread ⊢
  exact ⟨hw.named.update hread rfl rfl, fun m hm => (hw.others m hm).setBackup hm _, hw.ns, hw.idle⟩

theorem writeStatus_live (hcopy : Copy bk bk') (hopen : isTerminal bk' = false) :
    (writeStatus env bk').Maintains (Live timely owned bk) := by
  refine writeStatus_triple (fun _ hw => hw) fun w fresh hw hread => ?_
  rw [hcopy.name] at hread ⊢
  obtain ⟨b, hstored, hspec, hfin, -⟩ := hw.stored
  cases hread.symm.trans hstored
  exact ⟨hw.named.update hread rfl rfl, fun m hm => (hw.others m hm).setBackup hm _, hw.ns,
    ⟨_, Function.update_self .., hspec, hfin, hopen⟩, hw.locked, hw.kept⟩

/-! ### The lock -/

theorem Live.claims {success : Prop} (h : Live timely owned bk w)
    (hclaims : Claims (leaseHolderID bk) success (w.lock cluster) lock) :
    Live timely owned bk (w.setLease cluster lock.lease) := by
  rw [leaseHolderID_eq h.ns] at hclaims
  refine ⟨h.named, fun m hm => ?_, h.ns, h.stored, fun job hread hactive => ?_,
    fun c hc => (h.kept c hc).claims hclaims⟩
  · exact (h.others m hm).transfer rfl rfl fun _ _ hlock => hlock.claims hclaims
  · obtain ⟨hcluster, hlock⟩ := h.locked job hread hactive
    exact ⟨hcluster, fun ht => (hlock ht).claims hclaims⟩

variable (timely owned)

theorem acquireLock_live {readable : Prop} :
    (acquireLock env bk).Triple
      (fun w => Live timely owned bk w ∧ (JobRuns w bk.name → readable))
      (fun got w => Live timely owned bk w ∧ (JobRuns w bk.name → readable) ∧
        (got = true → LockedBy w bk.spec.clusterName bk.name))
      (Live timely owned bk) := by
  refine onLock_triple fun w ⟨hw, hruns⟩ => ?_
  have hclaims := @acquireClusterLease_claims (w.lock bk.spec.clusterName) env.acquire bk
  refine ⟨fun got hgot => ⟨hw.claims hclaims, hruns, ?_⟩, hw.claims hclaims⟩
  rintro rfl
  have hclaimed := hclaims.success hgot
  rw [leaseHolderID_eq hw.ns] at hclaimed
  exact .of_claimed hclaimed

theorem renewLock_live :
    (renewLock env bk).Maintains (Live timely owned bk) := by
  refine onLock_triple fun w hw => ?_
  have hlive := hw.claims
    (@renewClusterLease_claims (w.lock bk.spec.clusterName) env.renew bk)
  exact ⟨fun _ _ => hlive, hlive⟩

theorem releaseLock_idle {faults : LeaseReq → Option Fault} (hcopy : Copy bk bk') :
    (releaseLock faults bk').Maintains (Idle timely bk) := by
  refine onLock_triple fun w hw => ?_
  have hclears := @releaseClusterLease_clears (w.lock bk'.spec.clusterName) faults bk'
  rw [leaseHolderID_eq (hcopy.ns.trans hw.ns), hcopy.name] at hclears
  have hidle : Idle timely bk (w.setLease bk'.spec.clusterName
      ((w.lock bk'.spec.clusterName).perform faults (releaseClusterLease bk')).2.lease) :=
    ⟨hw.named, fun m hm =>
      (hw.others m hm).transfer rfl rfl fun _ _ hlock => hlock.clears hm hclears, hw.ns, hw.idle⟩
  exact ⟨fun _ _ => hidle, hidle⟩

theorem terminalFail_idle {reason msg : Str} :
    (terminalFail env bk reason msg).Maintains (Idle timely bk) := by
  refine .bind (.read fun w hw _ => hw) fun now => ?_
  refine .bind ((releaseLock_idle timely ⟨rfl, rfl, rfl⟩).pre fun w hw => hw.1) fun _ => ?_
  exact writeStatus_idle ⟨rfl, rfl, rfl⟩

variable {timely owned}

/-! ### The Job -/

theorem not_jobRuns_of_none (h : w.jobs (backupJobName name) = none) : ¬ JobRuns w name := by
  rintro ⟨job, hread, -⟩
  cases hread.symm.trans h

theorem Vacant.spawn {template : JobTemplate} (h : Vacant timely owned bk w)
    (hcluster : template.params.cluster = bk.spec.clusterName) :
    Live timely owned bk (w.spawn (backupJobName bk.name) bk.uid template) := by
  unfold BackupWorld.spawn
  rw [h.absent]
  refine ⟨h.live.named, fun m hm => ?_, h.live.ns, h.live.stored, fun job hread _ => ?_, h.live.kept⟩
  · exact (h.live.others m hm).setJob (fun he => hm (backupJobName_injective he)) _
  · have hjob : some { template with uid := w.nextUid, creator := bk.uid } = some job := by
      simpa [BackupWorld.setJob] using hread
    cases hjob
    exact ⟨hcluster, h.locked⟩

variable (timely owned)

/-- A Job that is looked for without an error is found or created under the lock. -/
theorem createBackupJob_live {jobGet : Option Err} :
    (createBackupJob env jobGet bk rs).Triple
      (fun w => Live timely owned bk w ∧ (JobRuns w bk.name → jobGet = none) ∧
        (w.jobs (backupJobName bk.name) = none → timely → LockedBy w bk.spec.clusterName bk.name))
      (fun bk' w => Live timely owned bk w ∧ Copy bk bk' ∧ bk'.status.state = bk.status.state)
      (Uncreated timely owned env bk) := by
  refine createBackupJob_triple ?_ (fun _ hw => ⟨hw.1, ⟨rfl, rfl, rfl⟩, rfl⟩) ?_ ?_ ?_
    fun _ _ hw => ⟨hw, ⟨rfl, rfl, rfl⟩, rfl⟩
  · rintro hfault w ⟨hw, hjobGet, -⟩
    exact .inl (hw.idle fun hruns => hfault (hjobGet hruns))
  · rintro w ⟨hw, -, -⟩ hnone
    exact .inl (hw.idle (not_jobRuns_of_none hnone))
  · rintro w cluster ⟨hw, -, hlock⟩ hnone -
    exact Vacant.spawn ⟨hw, hnone, hlock hnone⟩ rfl
  · rintro e he w hw
    exact .inr ⟨hw, e, he⟩

theorem not_jobRuns_of_inactive {job : Job} (hread : w.jobs (backupJobName name) = some job)
    (hover : job.active = false) : ¬ JobRuns w name := by
  rintro ⟨job', hread', hactive⟩
  cases hread.symm.trans hread'
  rw [hover] at hactive
  cases hactive

theorem failBackup_copy {now : Int} {reason msg : Str} :
    Copy bk (failBackup now bk reason msg) := ⟨rfl, rfl, rfl⟩

theorem handleJobComplete_copy {now : Int} {manifest : Except Err Manifest} :
    Copy bk (handleJobComplete now manifest bk) := by
  unfold handleJobComplete
  split
  · exact failBackup_copy
  · dsimp only
    split
    · exact ⟨rfl, rfl, rfl⟩
    · split <;> exact ⟨rfl, rfl, rfl⟩

/-- A final verdict is passed on a Job that is over; otherwise the backup goes on. -/
theorem watchJob_live (hopen : isTerminal bk = false) :
    (watchJob env bk rs).Triple
      (fun w => Live timely owned bk w ∧ (w.jobs (backupJobName bk.name) = none → timely →
        LockedBy w bk.spec.clusterName bk.name))
      (fun r w => Copy bk r.1 ∧
        if r.2 then Idle timely bk w else Live timely owned bk w ∧ isTerminal r.1 = false)
      (Passed timely owned bk.name) := by
  refine .bind (.mapErr (.read fun w hw _ => hw.1.passed)) fun got => ?_
  refine .bind (.read fun w hw h => absurd rfl h) fun now => ?_
  cases got with
  | none =>
    refine .bind (((createBackupJob_live timely owned).pre ?_).failing ?_) fun bk' => ?_
    · rintro w ⟨⟨⟨hw, hlock⟩, hread⟩, -⟩
      exact ⟨hw, fun hruns => absurd hruns (not_jobRuns_of_none hread.symm), hlock⟩
    · rintro w (hw | ⟨hw, -⟩)
      · exact hw.passed
      · exact hw.passed
    · refine .pure fun w ⟨hw, hcopy, hstate⟩ => ⟨hcopy, hw, ?_⟩
      simpa [isTerminal, hstate] using hopen
  | some job =>
    have hover : job.active = false → ∀ w, (((Live timely owned bk w ∧
        (w.jobs (backupJobName bk.name) = none → timely → LockedBy w bk.spec.clusterName bk.name)) ∧
        some job = w.jobs (backupJobName bk.name)) ∧ now = w.clock) → Idle timely bk w :=
      fun h w hw => hw.1.1.1.idle (not_jobRuns_of_inactive hw.1.2.symm h)
    dsimp only
    split
    · rename_i hcomplete
      exact .pure fun w hw => ⟨handleJobComplete_copy, hover (by simp [Job.active, hcomplete]) w hw⟩
    split
    · rename_i hevicted
      have hfailed := jobConditionTrue_of_evicted hevicted
      exact .pure fun w hw => ⟨failBackup_copy, hover (by simp [Job.active, hfailed]) w hw⟩
    split
    · rename_i hfailed
      exact .pure fun w hw => ⟨failBackup_copy, hover (by simp [Job.active, hfailed]) w hw⟩
    · refine .bind (((renewLock_live timely owned).pre fun w hw => hw.1.1.1).failing
        fun w hw => hw.passed) fun _ => ?_
      exact .pure fun w hw => ⟨⟨rfl, rfl, rfl⟩, hw, rfl⟩

/-! ### The phases -/

theorem reconcileStart_passed (hcreate : ∀ e, env.jobCreate ≠ some (.lost e)) :
    (reconcileStart env bk rs).Triple
      (fun w => Live timely owned bk w ∧ (JobRuns w bk.name → env.jobGet = none))
      (fun _ => Passed timely owned bk.name) (Passed timely owned bk.name) := by
  have hstatus : ∀ (state : BackupState) (text : Str), isTerminalState state = false →
      (writeStatus env (setState bk state text)).Triple (Live timely owned bk)
        (fun _ => Passed timely owned bk.name) (Passed timely owned bk.name) :=
    fun state text hopen =>
      have hwrite := @writeStatus_live timely owned env bk (setState bk state text) ⟨rfl, rfl, rfl⟩ hopen
      hwrite.post (fun _ w hw => hw.passed) fun w hw => hw.passed
  refine .bind (.read fun w hw h => absurd rfl h) fun got => ?_
  rcases clusterSnapshotReady bk.spec.clusterName got with e | _ | reason
  · exact .throw fun w hw => hw.1.1.passed
  · refine .bind (((acquireLock_live timely owned).pre fun w hw => hw.1).failing
      fun w hw => hw.passed) fun acquired => ?_
    cases acquired with
    | false => exact (hstatus .starting _ rfl).pre fun w hw => hw.1
    | true =>
      have hfail : ∀ e : Err, (terminalFail env bk reasonJobCreateError e.msg).Triple
          (Idle timely bk) (fun _ => Passed timely owned bk.name)
          (Passed timely owned bk.name) :=
        fun e => (terminalFail_idle timely).post (fun _ w hw => hw.passed) fun w hw => hw.passed
      refine .handle ((createBackupJob_live timely owned).pre
        fun w hw => ⟨hw.1, hw.2.1, fun _ _ => hw.2.2 rfl⟩) (fun bk' => ?_) fun e => ?_
      · intro w ⟨hw, hcopy, _⟩
        have hrunning : Copy bk (setState bk' .running
            (describe reasonJobRunning "backup Job created")) :=
          ⟨hcopy.name, hcopy.ns, hcopy.spec⟩
        exact (writeStatus_live hrunning rfl).post (fun _ w hw => hw.passed)
          (fun w hw => hw.passed) w hw
      · -- the answer to the creation did not get lost, so there is no Job
        have hidle : ∀ w, Uncreated timely owned env bk w → Idle timely bk w := by
          rintro w (hw | ⟨-, e, he⟩)
          · exact hw
          · exact absurd he (hcreate e)
        exact .handle ((releaseLock_idle timely ⟨rfl, rfl, rfl⟩).pre hidle) (fun _ => hfail e)
          fun _ => hfail e
  · exact (hstatus .starting (describe reasonClusterNotReady reason) rfl).pre fun w hw => hw.1.1

theorem reconcileRunning_passed (hopen : isTerminal bk = false) :
    (reconcileRunning env bk rs).Triple
      (fun w => Live timely owned bk w ∧ (w.jobs (backupJobName bk.name) = none → timely →
        LockedBy w bk.spec.clusterName bk.name))
      (fun _ => Passed timely owned bk.name) (Passed timely owned bk.name) := by
  refine .bind (watchJob_live timely owned hopen) fun r => ?_
  obtain ⟨bk', finished⟩ := r
  cases finished with
  | true =>
    intro w ⟨hcopy, hw⟩
    have hend : (do releaseLock env.release bk'; writeStatus env bk').Maintains (Idle timely bk) :=
      .bind (releaseLock_idle timely hcopy) fun _ => writeStatus_idle hcopy
    exact (hend.post (fun _ w hw => hw.passed) fun w hw => hw.passed) w hw
  | false =>
    intro w ⟨hcopy, hw, hopen'⟩
    exact (writeStatus_live hcopy hopen').post (fun _ w hw => hw.passed)
      (fun w hw => hw.passed) w hw

/-- What keeps a pass from letting go of the lock while the Job runs. -/
structure KeepsLock (env : BackupInputs) (w : BackupWorld) (bk : PerconaValkeyBackup) : Prop where
  deletion : JobRuns w bk.name → bk.deleting = false
  storage : JobRuns w bk.name → ∃ rs, storageOf env w bk = .ok rs
  found : JobRuns w bk.name → bk.status.state ≠ .running → env.jobGet = none
  created : bk.status.state ≠ .running → ∀ e, env.jobCreate ≠ some (.lost e)
  /-- a vanished Job is created again by the holder of the lock -/
  recreated : timely → bk.status.state = .running → w.jobs (backupJobName bk.name) = none →
    LockedBy w bk.spec.clusterName bk.name

theorem advance_passed (hopen : isTerminal bk = false) :
    (advance env bk).Triple (fun w => Live timely owned bk w ∧ KeepsLock timely env w bk)
      (fun _ => Passed timely owned bk.name) (Passed timely owned bk.name) := by
  refine .bind (.read fun w hw h => absurd rfl h) fun resolved => ?_
  cases resolved with
  | error e =>
    refine ((terminalFail_idle timely).pre ?_).post (fun _ w hw => hw.passed) fun w hw => hw.passed
    rintro w ⟨⟨hw, hkeeps⟩, hread⟩
    refine hw.idle fun hruns => ?_
    obtain ⟨rs, hrs⟩ := hkeeps.storage hruns
    cases hread.trans hrs
  | ok rs =>
    have hcopy : Copy bk (hydrateStorage bk rs) := ⟨rfl, rfl, rfl⟩
    have hstart : bk.status.state ≠ .running → (reconcileStart env (hydrateStorage bk rs) rs).Triple
        (fun w => (Live timely owned bk w ∧ KeepsLock timely env w bk) ∧ .ok rs = storageOf env w bk)
        (fun _ => Passed timely owned bk.name) (Passed timely owned bk.name) := by
      intro hstate w hw
      exact reconcileStart_passed timely owned (hw.1.2.created hstate) w
        ⟨hw.1.1.copy hcopy, fun hruns => hw.1.2.found hruns hstate⟩
    have hstate' : (hydrateStorage bk rs).status.state = bk.status.state := rfl
    have hopen' : isTerminal (hydrateStorage bk rs) = false := hopen
    cases hstate : bk.status.state with
    | running =>
      simp only [hstate', hstate]
      intro w hw
      exact reconcileRunning_passed timely owned hopen' w
        ⟨hw.1.1.copy hcopy, fun hnone ht => hw.1.2.recreated ht hstate hnone⟩
    | _ =>
      simp only [hstate', hstate]
      exact hstart (by simp [hstate])

/-! ### Deletion -/

variable {timely owned}

theorem Idle.setCleanupJob (h : Idle timely bk w) (job : Option Job) :
    Idle timely bk (w.setJob (cleanupJobName bk.name) job) := by
  refine ⟨h.named, fun m hm => (h.others m hm).setJob (backupJobName_ne_cleanup _ _) _, h.ns, ?_⟩
  rintro ⟨job', hread, hactive⟩
  refine h.idle ⟨job', ?_, hactive⟩
  simpa [BackupWorld.setJob, backupJobName_ne_cleanup] using hread

theorem createCleanupJob_idle :
    (createCleanupJob env bk rs).Maintains (Idle timely bk) := by
  have hspawn : ∀ w, Idle timely bk w → Idle timely bk
      (w.spawn (cleanupJobName bk.name) bk.uid (desiredCleanupJob bk rs)) := by
    intro w hw
    unfold BackupWorld.spawn
    cases w.jobs (cleanupJobName bk.name) with
    | some job => exact hw
    | none =>
      have hset := hw.setCleanupJob
        (some { desiredCleanupJob bk rs with uid := w.nextUid, creator := bk.uid })
      exact ⟨hset.named, hset.others, hset.ns, hset.idle⟩
  refine .bind (getClusterFor_reads fun w hw => hw) fun _ => ?_
  exact .mapErr (.write (fun w hw => hspawn w hw.1) (fun w hw => hw.1)
    fun _ w _ hw => hspawn w hw.1)

theorem removeFinalizer_idle :
    (removeFinalizer env bk).Maintains (Idle timely bk) := by
  have hremove : ∀ w, Idle timely bk w → Idle timely bk (w.setBackup bk.name
      (if bk.finalizers.filter (· ≠ finalizerDeleteBackup) = [] then none
        else some { bk with finalizers := bk.finalizers.filter (· ≠ finalizerDeleteBackup) })) := by
    intro w hw
    refine ⟨hw.named.setBackup fun b hb => ?_, fun m hm => (hw.others m hm).setBackup hm _,
      hw.ns, hw.idle⟩
    split at hb
    · cases hb
    · cases hb
      exact ⟨rfl, hw.ns⟩
  exact .mapErr (.write hremove (fun w hw => hw) fun _ w _ hw => hremove w hw)

theorem driveCleanup_idle :
    (driveCleanup env bk rs).Maintains (Idle timely bk) := by
  refine .bind (.mapErr (.read fun w hw _ => hw)) fun got => ?_
  cases got with
  | none => exact createCleanupJob_idle.pre fun w hw => hw.1
  | some job =>
    dsimp only
    split
    · exact removeFinalizer_idle.pre fun w hw => hw.1
    split
    · have hdelete : ∀ w, Idle timely bk w →
          Idle timely bk (w.setJob (cleanupJobName bk.name) none) :=
        fun w hw => hw.setCleanupJob none
      exact .mapErr (.write (fun w hw => hdelete w hw.1) (fun w hw => hw.1)
        fun _ w _ hw => hdelete w hw.1)
    · exact .pure fun w hw => hw.1

theorem handleDeletion_idle :
    (handleDeletion env bk).Maintains (Idle timely bk) := by
  unfold handleDeletion
  split
  · exact .pure fun w hw => hw
  refine .bind (releaseLock_idle timely ⟨rfl, rfl, rfl⟩) fun _ => ?_
  refine .handle (Q := fun _ => Idle timely bk) (E := Idle timely bk) ?_
    (fun rs => driveCleanup_idle) fun _ => .pure fun w hw => hw
  refine .bind (getClusterFor_reads fun w hw => hw) fun cluster => ?_
  cases resolveStorage cluster bk with
  | ok rs => exact .pure fun w hw => hw.1
  | error e => exact .throw fun w hw => hw.1

/-! ### The whole pass -/

theorem Exclusive.passed (h : Exclusive timely w) :
    Passed timely (fun cluster => Names w cluster name) name w :=
  ⟨h, fun _ _ hnames => hnames⟩

theorem Exclusive.live (h : Exclusive timely w) (hstored : w.backups bk.name = some bk)
    (hfin : finalizerDeleteBackup ∈ bk.finalizers) (hopen : isTerminal bk = false)
    (howned : ∀ cluster, owned cluster → Names w cluster bk.name) : Live timely owned bk w := by
  refine ⟨h.named, fun m _ => h.sound m, (h.named _ _ hstored).2,
    ⟨bk, hstored, rfl, hfin, hopen⟩, fun job hread hactive => ?_, howned⟩
  obtain ⟨b, hb, -, -, hcluster, hlock⟩ := h.sound bk.name job hread hactive
  cases hstored.symm.trans hb
  exact ⟨hcluster, hlock⟩

theorem Exclusive.edit (h : Exclusive timely w) (hstored : w.backups bk.name = some bk)
    (hcopy : Copy bk bk') (hstatus : bk'.status = bk.status)
    (hfin : finalizerDeleteBackup ∈ bk.finalizers → finalizerDeleteBackup ∈ bk'.finalizers) :
    Exclusive timely (w.setBackup bk.name (some bk')) := by
  refine ⟨h.named.update hstored hcopy.name hcopy.ns, fun m => ?_⟩
  by_cases hm : m = bk.name
  · subst hm
    intro job hread hactive
    obtain ⟨b, hb, hbfin, hopen, hcluster, hlock⟩ := h.sound bk.name job hread hactive
    cases hstored.symm.trans hb
    refine ⟨bk', Function.update_self .., hfin hbfin, ?_, ?_, ?_⟩
    · rw [isTerminal, hstatus]
      exact hopen
    · rw [hcopy.spec]
      exact hcluster
    · rw [hcopy.spec]
      exact hlock
  · exact (h.sound m).setBackup hm _

theorem ensureFinalizer_live (h : Exclusive timely w) (hstored : w.backups bk.name = some bk)
    (hkeeps : KeepsLock timely env w bk) :
    (ensureFinalizer env bk).Triple (· = w)
      (fun bk' v => bk'.name = bk.name ∧
        Passed timely (fun cluster => Names w cluster bk.name) bk.name v ∧
        (isTerminal bk' = false →
          Live timely (fun cluster => Names w cluster bk.name) bk' v ∧ KeepsLock timely env v bk'))
      (Passed timely (fun cluster => Names w cluster bk.name) bk.name) := by
  refine ensureFinalizer_triple ?_ ?_ ?_
  · rintro hfin v rfl
    exact ⟨rfl, h.passed, fun hopen => ⟨h.live hstored hfin hopen fun _ hnames => hnames, hkeeps⟩⟩
  · rintro v rfl
    exact h.passed
  · rintro v _ rfl rfl
    have hadded : Exclusive timely (v.setBackup bk.name
        (some { bk with finalizers := bk.finalizers ++ [finalizerDeleteBackup] })) :=
      h.edit hstored ⟨rfl, rfl, rfl⟩ rfl fun hfin => by simp
    have hpassed : Passed timely (fun cluster => Names v cluster bk.name) bk.name (v.setBackup bk.name
        (some { bk with finalizers := bk.finalizers ++ [finalizerDeleteBackup] })) :=
      ⟨hadded, fun _ _ hnames => hnames⟩
    refine ⟨⟨rfl, hpassed, fun hopen => ⟨?_, ?_⟩⟩, hpassed⟩
    · exact hadded.live (Function.update_self ..) (by simp) hopen fun _ hnames => hnames
    · exact ⟨hkeeps.deletion, hkeeps.storage, hkeeps.found, hkeeps.created, hkeeps.recreated⟩

/-- A pass on a sound world leaves one behind, and lets go of a lock only if the Job
is not running. -/
theorem reconcile_passed (hkeeps : ∀ bk, w.backups name = some bk → KeepsLock timely env w bk)
    (h : Exclusive timely w) :
    Passed timely (fun cluster => Names w cluster name) name ((reconcile env name).after w) := by
  suffices (reconcile env name).Triple (· = w)
      (fun _ => Passed timely (fun cluster => Names w cluster name) name)
      (Passed timely (fun cluster => Names w cluster name) name) from this.after rfl
  refine .bind (.read fun v hv _ => hv ▸ h.passed) fun got => ?_
  cases got with
  | none => exact .pure fun v hv => hv.1 ▸ h.passed
  | some bk =>
    refine .fixed fun hread => ?_
    obtain ⟨rfl, hns⟩ := h.named name bk hread.symm
    have hkeeps := hkeeps bk hread.symm
    dsimp only
    split
    · rename_i hdeleting
      have hidle : ¬ JobRuns w bk.name := fun hruns => by
        rw [hkeeps.deletion hruns] at hdeleting
        cases hdeleting
      refine (handleDeletion_idle.pre ?_).post (fun _ _ hw => hw.passed) fun _ hw => hw.passed
      rintro v rfl
      exact ⟨h.named, fun m _ => h.sound m, hns, hidle⟩
    · refine .bind (ensureFinalizer_live h hread.symm hkeeps) fun bk' => ?_
      split
      · exact .pure fun _ hw => hw.2.1
      · rename_i hopen
        have hopen : isTerminal bk' = false := by simpa using hopen
        intro v ⟨hname, _, hlive⟩
        have hpassed := advance_passed timely _ hopen v (hlive hopen)
        rw [hname] at hpassed
        exact hpassed

/-! ## Runs -/

/-- An event after which the holders of locks still hold them: passes keep the lock
of a running Job, and its lease is renewed before it runs out. -/
def Orderly (timely : Prop) (w : BackupWorld) : BackupEvent → Prop
  | .pass name env => ∀ bk, w.backups name = some bk → KeepsLock timely env w bk
  | .tick clock => timely → ∀ name cluster, JobRuns w name → LockedBy w cluster name →
      LockedBy { w with clock := max w.clock clock } cluster name
  | _ => True

/-- A backup is created without a Job of its name that still runs: one would have a backup. -/
theorem Exclusive.create (h : Exclusive timely w) (name : Str) (spec : BackupSpec) :
    Exclusive timely (w.step (.create name spec)) := by
  simp only [BackupWorld.step]
  cases hstored : w.backups name with
  | some bk => exact h
  | none =>
    refine ⟨h.named.setBackup fun b hb => ?_, fun m => ?_⟩
    · cases hb
      exact ⟨rfl, rfl⟩
    by_cases hm : m = name
    · subst hm
      refine .of_idle fun ⟨job, hread, hactive⟩ => ?_
      obtain ⟨b, hb, -⟩ := h.sound m job hread hactive
      cases hstored.symm.trans hb
    · exact (h.sound m).setBackup hm _

/-- A backup that goes at once has no finalizer, so its Job does not run. -/
theorem Exclusive.requestDeletion (h : Exclusive timely w) (name : Str) :
    Exclusive timely (w.step (.requestDeletion name)) := by
  simp only [BackupWorld.step]
  cases hstored : w.backups name with
  | none => exact h
  | some bk =>
    obtain ⟨rfl, -⟩ := h.named name bk hstored
    dsimp only
    split
    · rename_i hbare
      refine ⟨h.named.setBackup (fun b hb => nomatch hb), fun m => ?_⟩
      by_cases hm : m = bk.name
      · subst hm
        refine .of_idle fun ⟨job, hread, hactive⟩ => ?_
        obtain ⟨b, hb, hfin, -⟩ := h.sound bk.name job hread hactive
        cases hstored.symm.trans hb
        simp [hbare] at hfin
      · exact (h.sound m).setBackup hm _
    · exact h.edit hstored ⟨rfl, rfl, rfl⟩ rfl fun hfin => hfin

theorem Exclusive.jobReport (h : Exclusive timely w) (name : Str)
    (conditions : List JobCondition) (failedPods : Int) :
    Exclusive timely (w.step (.jobReport name conditions failedPods)) := by
  simp only [BackupWorld.step]
  cases hjob : w.jobs name with
  | none => exact h
  | some job =>
    dsimp only
    split
    · rename_i hactive
      refine ⟨h.named, fun m => ?_⟩
      by_cases hm : backupJobName m = name
      · subst hm
        intro job' hread' _
        have hsame : some { job with conditions := conditions, failedPods := failedPods } =
            some job' := by
          simpa [BackupWorld.setJob] using hread'
        cases hsame
        exact h.sound m job hjob hactive
      · exact (h.sound m).setJob hm _
    · exact h

theorem Exclusive.jobVanish (h : Exclusive timely w) (name : Str) :
    Exclusive timely (w.step (.jobVanish name)) := by
  refine ⟨h.named, fun m => ?_⟩
  by_cases hm : backupJobName m = name
  · subst hm
    exact .of_idle (not_jobRuns_of_none (Function.update_self ..))
  · exact (h.sound m).setJob hm _

theorem Exclusive.step {e : BackupEvent} (h : Exclusive timely w) (he : Orderly timely w e) :
    Exclusive timely (w.step e) := by
  cases e with
  | create name spec => exact h.create name spec
  | requestDeletion name => exact h.requestDeletion name
  | editCluster name cluster => exact ⟨h.named, h.sound⟩
  | editSecret name keys => exact ⟨h.named, h.sound⟩
  | tick clock =>
    refine ⟨h.named, fun m job hread hactive => ?_⟩
    obtain ⟨bk, hstored, hfin, hopen, hcluster, hlock⟩ := h.sound m job hread hactive
    exact ⟨bk, hstored, hfin, hopen, hcluster, fun ht =>
      he ht m _ ⟨job, hread, hactive⟩ (hlock ht)⟩
  | jobReport name conditions failedPods => exact h.jobReport name conditions failedPods
  | jobVanish name => exact h.jobVanish name
  | pass name env => exact (reconcile_passed he h).exclusive

end Pass

/-- Neither backups nor Jobs are there yet. -/
structure BackupWorld.Fresh (w : BackupWorld) : Prop where
  backups : ∀ name, w.backups name = none
  jobs : ∀ name, w.jobs name = none

theorem BackupWorld.Fresh.exclusive {timely : Prop} (h : w.Fresh) : Exclusive timely w := by
  refine ⟨fun name bk hbk => ?_, fun name => .of_idle (not_jobRuns_of_none (h.jobs _))⟩
  cases (h.backups name).symm.trans hbk

/-- In an orderly run a backup that is over or lets go of a lock has no running Job.
If moreover leases are renewed in time, no two Jobs of a cluster run at once. -/
theorem lock_kept_while_job_runs {start : BackupWorld} (hfresh : start.Fresh) :
    (∀ w, Runs BackupWorld.step (Orderly False) start w →
      (∀ name bk, w.backups name = some bk → isTerminal bk = true → ¬ JobRuns w name) ∧
      ∀ name env cluster, Orderly False w (.pass name env) → Names w cluster name →
        ¬ Names (w.step (.pass name env)) cluster name → ¬ JobRuns (w.step (.pass name env)) name) ∧
    ∀ w, Runs BackupWorld.step (Orderly True) start w → ∀ a b jobA jobB,
      w.jobs (backupJobName a) = some jobA → jobA.active = true →
      w.jobs (backupJobName b) = some jobB → jobB.active = true →
      jobA.params.cluster = jobB.params.cluster → a = b := by
  refine ⟨fun w hrun => ?_, fun w hrun a b jobA jobB hreadA hactiveA hreadB hactiveB hsame => ?_⟩
  · have hexclusive : Exclusive False w :=
      hrun.preserves (fun _ _ he h => h.step he) hfresh.exclusive
    constructor
    · rintro name bk hstored hterminal ⟨job, hread, hactive⟩
      obtain ⟨b, hb, -, hopen, -⟩ := hexclusive.sound name job hread hactive
      cases hstored.symm.trans hb
      rw [hterminal] at hopen
      cases hopen
    · intro name env cluster he hnames hreleased hruns
      exact hreleased ((reconcile_passed he hexclusive).kept hruns cluster hnames)
  · have hexclusive : Exclusive True w :=
      hrun.preserves (fun _ _ he h => h.step he) hfresh.exclusive
    obtain ⟨bkA, -, -, -, hclusterA, hlockA⟩ := hexclusive.sound a jobA hreadA hactiveA
    obtain ⟨bkB, -, -, -, hclusterB, hlockB⟩ := hexclusive.sound b jobB hreadB hactiveB
    have hlockA := hlockA trivial
    have hlockB := hlockB trivial
    rw [← hclusterA] at hlockA
    rw [← hclusterB, ← hsame] at hlockB
    exact hlockA.unique hlockB

theorem jobRuns_of_active {name : Str}
    (h : (w.jobs (backupJobName name)).map Job.active = some true) : JobRuns w name := by
  obtain ⟨job, hread, hactive⟩ := Option.map_eq_some_iff.mp h
  exact ⟨job, hread, hactive⟩

/-- A pass that finds its storage, reads its Job and is told of the Job it creates,
and no time that passes. -/
def steady (w : BackupWorld) : BackupEvent → Bool
  | .pass name env => env.jobGet = none && env.jobCreate = none && (w.backups name).all fun bk =>
      !bk.deleting && (storageOf env w bk).isOk &&
        (bk.status.state ≠ .running || (w.jobs (backupJobName bk.name)).isSome)
  | .tick _ => false
  | _ => true

theorem orderly_of_steady {timely : Prop} {e : BackupEvent} (h : steady w e = true) :
    Orderly timely w e := by
  cases e with
  | pass name env =>
    intro bk hbk
    simp only [steady, hbk, Option.all_some, Bool.and_eq_true, Bool.or_eq_true,
      decide_eq_true_eq] at h
    obtain ⟨⟨hget, hcreate⟩, ⟨hkept, hstorage⟩, hjob⟩ := h
    refine ⟨fun _ => by simpa using hkept, fun _ => ?_, fun _ _ => hget, fun _ e => ?_, ?_⟩
    · cases hresolved : storageOf env w bk with
      | ok rs => exact ⟨rs, rfl⟩
      | error e => simp [hresolved, Except.isOk, Except.toBool] at hstorage
    · simp [hcreate]
    · intro _ hrunning hnone
      simp [hrunning, hnone] at hjob
  | tick clock => cases h
  | _ => trivial

theorem steady_run {timely : Prop} {events : List BackupEvent}
    (h : Runs.Allows BackupWorld.step (fun w e => steady w e = true) w events) :
    Runs BackupWorld.step (Orderly timely) w (w.play events) :=
  .of_allows (h.imp (I := fun _ => True) (fun _ _ _ he => ⟨orderly_of_steady he, trivial⟩) trivial)

/-- The Job of `b1` runs, `b2` waits for the lock, and the Job completes. -/
def firstJob : List BackupEvent :=
  furnish "backups" ++
    [.create "b1" mainBackup, .pass "b1" {},
      .create "b2" mainBackup, .pass "b2" {},
      .jobReport (backupJobName "b1") [{ type := .complete, status := true }] 0]

/-- `b1` lets go of the lock, and `b2` takes it and starts its Job. -/
def secondJob : List BackupEvent := [.pass "b1" {}, .pass "b2" {}]

def afterFirst : BackupWorld := bareNamespace.play firstJob

def afterBoth : BackupWorld := afterFirst.play secondJob

theorem afterBoth_run {timely : Prop} :
    Runs BackupWorld.step (Orderly timely) bareNamespace afterFirst ∧
      Runs BackupWorld.step (Orderly timely) bareNamespace afterBoth := by
  have hfirst : Runs BackupWorld.step (Orderly timely) bareNamespace afterFirst :=
    steady_run (by decide +kernel)
  exact ⟨hfirst, hfirst.trans (steady_run (by decide +kernel))⟩

/-- The first backup is over and its Job does not run when it lets go of the lock; the
Job of the second is then the only one of the cluster. -/
theorem lock_kept_while_job_runs_firstJob :
    (Names afterFirst "prod" "b1" ∧
      ¬ Names (afterFirst.step (.pass "b1" {})) "prod" "b1" ∧
      ¬ JobRuns (afterFirst.step (.pass "b1" {})) "b1") ∧
    ((afterBoth.backups "b1").map isTerminal = some true ∧ ¬ JobRuns afterBoth "b1") ∧
    JobRuns afterBoth "b2" ∧
      ∀ b job, afterBoth.jobs (backupJobName b) = some job → job.active = true →
        job.params.cluster = "prod" → b = "b2" := by
  obtain ⟨horderly, hexclusive⟩ :=
    lock_kept_while_job_runs (show bareNamespace.Fresh from ⟨fun _ => rfl, fun _ => rfl⟩)
  have hnames : Names afterFirst "prod" "b1" := ⟨_, rfl, by decide +kernel⟩
  have hfreed : ¬ Names (afterFirst.step (.pass "b1" {})) "prod" "b1" := by
    rintro ⟨lease, hstored, hholder⟩
    have hfree : ((afterFirst.step (.pass "b1" {})).leases "prod").stored.bind
        Lease.holderIdentity = none := by decide +kernel
    rw [hstored, Option.bind_some, hholder] at hfree
    cases hfree
  have hsteady : steady afterFirst (.pass "b1" {}) = true := by decide +kernel
  have hover : (afterBoth.backups "b1").map isTerminal = some true := by decide +kernel
  obtain ⟨bk, hbk, hterminal⟩ := Option.map_eq_some_iff.mp hover
  have hruns : JobRuns afterBoth "b2" := jobRuns_of_active (by decide +kernel)
  refine ⟨⟨hnames, hfreed, ?_⟩, ⟨hover, ?_⟩, hruns, fun b job hread hactive hcluster => ?_⟩
  · exact (horderly _ afterBoth_run.1).2 _ _ _ (orderly_of_steady hsteady) hnames hfreed
  · exact (horderly _ afterBoth_run.2).1 _ bk hbk hterminal
  · obtain ⟨job₂, hread₂, hactive₂⟩ := hruns
    have hcluster₂ : (afterBoth.jobs (backupJobName "b2")).map
        (fun job => job.params.cluster) = some "prod".toList := by decide +kernel
    rw [hread₂] at hcluster₂
    exact hexclusive _ afterBoth_run.2 b _ job job₂ hread hactive hread₂ hactive₂
      (hcluster.trans (Option.some.inj hcluster₂).symm)

/-- A read of the cluster fails while the Job of `b1` runs. -/
def failedRead : List BackupEvent :=
  furnish "backups" ++
    [.create "b1" mainBackup, .pass "b1" {},
      .pass "b1" { defaultsGet := some { msg := "timeout" } },
      .create "b2" mainBackup, .pass "b2" {}]

/-- After a failed read a backup is recorded as failed, its Job goes on, and the lock
is free for the Job of another backup. -/
theorem failed_read_frees_lock :
    (∃ bk, ((bareNamespace.play failedRead).backups "b1") = some bk ∧ isTerminal bk = true) ∧
    JobRuns (bareNamespace.play failedRead) "b1" ∧
    JobRuns (bareNamespace.play failedRead) "b2" := by
  refine ⟨?_, jobRuns_of_active (by decide +kernel), jobRuns_of_active (by decide +kernel)⟩
  have hterminal : ((bareNamespace.play failedRead).backups "b1").map isTerminal =
      some true := by decide +kernel
  exact Option.map_eq_some_iff.mp hterminal

end ValkeyOperator.Backup

import ValkeyOperator.Backup.Controller

/-! What a pass over a backup does, effect by effect.

A pass over a live backup is a sequence of small effects; one over a backup that is
being deleted writes the lease and then does one thing at most. What an invariant
has to withstand is the list of these effects, not the controller's code. -/

namespace ValkeyOperator.Backup
open Text Api

variable {name : Str} {w : BackupWorld} {bk : PerconaValkeyBackup} {env : BackupInputs}

/-- The effects of a pass over a live backup. -/
inductive Advances (name : Str) : BackupWorld → BackupWorld → Prop
  | lease (w : BackupWorld) (cluster : Str) (lease : Versioned Lease) :
      Advances name w (w.setLease cluster lease)
  | status {w : BackupWorld} {bk : PerconaValkeyBackup} (hstored : w.backups name = some bk)
      (status : BackupStatus) :
      Advances name w (w.setBackup name (some { bk with status := status }))
  | finalizer {w : BackupWorld} {bk : PerconaValkeyBackup} (hstored : w.backups name = some bk) :
      Advances name w (w.setBackup name
        (some { bk with finalizers := bk.finalizers ++ [finalizerDeleteBackup] }))
  | job {w : BackupWorld} {bk : PerconaValkeyBackup} {cluster : PerconaValkeyCluster}
      {rs : ResolvedStorage} (hstored : w.backups name = some bk) (hlive : bk.deleting = false)
      (hfin : finalizerDeleteBackup ∈ bk.finalizers)
      (hcluster : w.clusters bk.spec.clusterName = some cluster)
      (hstorage : resolveStorage cluster bk = .ok rs) :
      Advances name w (w.spawn (backupJobName name) bk.uid (desiredBackupJob bk cluster rs))

/-- What is done for a backup that is being deleted. -/
inductive Cleans (bk : PerconaValkeyBackup) : BackupWorld → BackupWorld → Prop
  | job {w : BackupWorld} {cluster : PerconaValkeyCluster} {rs : ResolvedStorage}
      (hcluster : w.clusters bk.spec.clusterName = some cluster)
      (hstorage : resolveStorage cluster bk = .ok rs)
      (habsent : w.jobs (cleanupJobName bk.name) = none) :
      Cleans bk w (w.spawn (cleanupJobName bk.name) bk.uid (desiredCleanupJob bk rs))
  | drop {w : BackupWorld} {job : Job} (hjob : w.jobs (cleanupJobName bk.name) = some job)
      (hfailed : jobConditionTrue job .failed = true) :
      Cleans bk w (w.setJob (cleanupJobName bk.name) none)
  | finalize {w : BackupWorld} {job : Job} (hjob : w.jobs (cleanupJobName bk.name) = some job)
      (hcomplete : jobConditionTrue job .complete = true) :
      Cleans bk w (w.setBackup bk.name
        (if bk.finalizers.filter (· ≠ finalizerDeleteBackup) = [] then none
          else some { bk with finalizers := bk.finalizers.filter (· ≠ finalizerDeleteBackup) }))

/-- A pass finds nothing to do, takes a live backup on, or cleans up behind one. -/
inductive PassDoes (name : Str) (w : BackupWorld) : BackupWorld → Prop
  | idle : PassDoes name w w
  | advance {w' : BackupWorld} {bk : PerconaValkeyBackup} (hstored : w.backups name = some bk)
      (hlive : bk.deleting = false) (heffects : Relation.ReflTransGen (Advances name) w w') :
      PassDoes name w w'
  | release {bk : PerconaValkeyBackup} (hstored : w.backups name = some bk)
      (hdeleting : bk.deleting = true) (cluster : Str) (lease : Versioned Lease) :
      PassDoes name w (w.setLease cluster lease)
  | clean {w' : BackupWorld} {bk : PerconaValkeyBackup} (hstored : w.backups name = some bk)
      (hdeleting : bk.deleting = true) (hfin : finalizerDeleteBackup ∈ bk.finalizers)
      (cluster : Str) (lease : Versioned Lease) (heffect : Cleans bk (w.setLease cluster lease) w') :
      PassDoes name w w'

/-! ## A live backup -/

/-- The copy of a backup that a pass works on: the status is its own. -/
def Redraft (bk bk' : PerconaValkeyBackup) : Prop := ∃ status, bk' = { bk with status := status }

theorem Redraft.refl (bk : PerconaValkeyBackup) : Redraft bk bk := ⟨bk.status, rfl⟩

theorem Redraft.trans {bk bk' bk'' : PerconaValkeyBackup} (h : Redraft bk bk')
    (h' : Redraft bk' bk'') : Redraft bk bk'' := by
  obtain ⟨status, rfl⟩ := h
  obtain ⟨status', rfl⟩ := h'
  exact ⟨status', rfl⟩

theorem setState_redraft (bk : PerconaValkeyBackup) (state : BackupState) (text : Str) :
    Redraft bk (setState bk state text) := ⟨_, rfl⟩

theorem hydrateStorage_redraft (bk : PerconaValkeyBackup) (rs : ResolvedStorage) :
    Redraft bk (hydrateStorage bk rs) := ⟨_, rfl⟩

theorem failBackup_redraft (now : Int) (bk : PerconaValkeyBackup) (reason msg : Str) :
    Redraft bk (failBackup now bk reason msg) := ⟨_, rfl⟩

theorem handleJobComplete_redraft (now : Int) (manifest : Except Err Manifest)
    (bk : PerconaValkeyBackup) : Redraft bk (handleJobComplete now manifest bk) := by
  unfold handleJobComplete
  split
  · exact ⟨_, rfl⟩
  · dsimp only
    split
    · exact ⟨_, rfl⟩
    · split <;> exact ⟨_, rfl⟩

/-- In the course of a pass over the backup `bk`: what is stored differs from it in
the status at most. -/
structure Underway (start : BackupWorld) (bk : PerconaValkeyBackup) (w : BackupWorld) : Prop where
  effects : Relation.ReflTransGen (Advances bk.name) start w
  clusters : w.clusters = start.clusters
  stored : ∃ b, w.backups bk.name = some b ∧ Redraft bk b

/-- The pass may create the backup's Job. -/
structure Startable (start : BackupWorld) (bk : PerconaValkeyBackup) (rs : ResolvedStorage) :
    Prop where
  live : bk.deleting = false
  finalizer : finalizerDeleteBackup ∈ bk.finalizers
  storage : ∀ cluster, start.clusters bk.spec.clusterName = some cluster →
    resolveStorage cluster bk = .ok rs

section Live

variable {start : BackupWorld} {bk' : PerconaValkeyBackup} {rs : ResolvedStorage}

theorem Startable.redraft (h : Startable start bk rs) (hcopy : Redraft bk bk') :
    Startable start bk' rs := by
  obtain ⟨status, rfl⟩ := hcopy
  exact ⟨h.live, h.finalizer, h.storage⟩

theorem Underway.redraft (h : Underway start bk w) (hcopy : Redraft bk bk') :
    Underway start bk' w := by
  obtain ⟨status, rfl⟩ := hcopy
  obtain ⟨b, hstored, status', rfl⟩ := h.stored
  exact ⟨h.effects, h.clusters, _, hstored, status', rfl⟩

theorem onLock_underway {α : Type} {faults : LeaseReq → Option Fault} {cluster : Str}
    {program : LeaseCalls (Except Err α)} :
    (onLock faults cluster program).Maintains (Underway start bk) := by
  refine onLock_triple fun w hw => ?_
  have hset : ∀ lease, Underway start bk (w.setLease cluster lease) := fun lease =>
    ⟨hw.effects.tail (.lease w cluster lease), hw.clusters, hw.stored⟩
  exact ⟨fun _ _ => hset _, hset _⟩

theorem writeStatus_underway (hcopy : Redraft bk bk') :
    (writeStatus env bk').Maintains (Underway start bk) := by
  obtain ⟨status, rfl⟩ := hcopy
  refine writeStatus_triple (fun _ hw => hw) fun w fresh hw hread => ?_
  obtain ⟨b, hstored, hredraft⟩ := hw.stored
  cases hread.symm.trans hstored
  exact ⟨hw.effects.tail (.status hread status), hw.clusters, _, Function.update_self ..,
    hredraft.trans ⟨status, rfl⟩⟩

theorem terminalFail_underway (hcopy : Redraft bk bk') {reason msg : Str} :
    (terminalFail env bk' reason msg).Maintains (Underway start bk) := by
  refine .bind (.read fun w hw _ => hw) fun now => ?_
  refine .bind (onLock_underway.pre fun w hw => hw.1) fun _ => ?_
  exact writeStatus_underway (hcopy.trans (failBackup_redraft ..))

theorem createBackupJob_underway (hstart : Startable start bk rs) {jobGet : Option Err} :
    (createBackupJob env jobGet bk rs).Triple (Underway start bk)
      (fun bk' w => Underway start bk w ∧ Redraft bk bk') (Underway start bk) := by
  refine createBackupJob_triple (fun _ _ hw => hw) (fun _ hw => ⟨hw, .refl bk⟩) (fun _ hw _ => hw)
    ?_ (fun _ _ _ hw => hw) fun _ _ hw => ⟨hw, _, rfl⟩
  intro w cluster hw _ hcluster
  obtain ⟨b, hstored, status, rfl⟩ := hw.stored
  have hstorage := hstart.storage cluster (by rw [← hw.clusters]; exact hcluster)
  have heffect : Advances bk.name w
      (w.spawn (backupJobName bk.name) bk.uid (desiredBackupJob bk cluster rs)) :=
    @Advances.job bk.name w { bk with status := status } cluster rs hstored hstart.live
      hstart.finalizer hcluster hstorage
  refine ⟨hw.effects.tail heffect, ?_, ?_⟩
  · rw [BackupWorld.spawn_clusters]
    exact hw.clusters
  · rw [BackupWorld.spawn_backups]
    exact ⟨_, hstored, status, rfl⟩

theorem watchJob_underway (hstart : Startable start bk rs) :
    (watchJob env bk rs).Triple (Underway start bk)
      (fun r w => Underway start bk w ∧ Redraft bk r.1) (Underway start bk) := by
  refine .bind (.mapErr (.read fun w hw _ => hw)) fun got => ?_
  refine .bind (.read fun w hw _ => hw.1) fun now => ?_
  cases got with
  | none =>
    refine .bind ((createBackupJob_underway hstart).pre fun w hw => hw.1.1) fun bk' => ?_
    exact .pure fun w hw => hw
  | some job =>
    dsimp only
    split
    · exact .pure fun w hw => ⟨hw.1.1, handleJobComplete_redraft ..⟩
    split
    · exact .pure fun w hw => ⟨hw.1.1, failBackup_redraft ..⟩
    split
    · exact .pure fun w hw => ⟨hw.1.1, failBackup_redraft ..⟩
    · refine .bind (onLock_underway.pre fun w hw => hw.1.1) fun _ => ?_
      exact .pure fun w hw => ⟨hw, setState_redraft ..⟩

theorem reconcileStart_underway (hstart : Startable start bk rs) :
    (reconcileStart env bk rs).Maintains (Underway start bk) := by
  refine .bind (.read fun w hw _ => hw) fun got => ?_
  rcases clusterSnapshotReady bk.spec.clusterName got with e | _ | reason
  · exact .throw fun w hw => hw.1
  · refine .bind (onLock_underway.pre fun w hw => hw.1) fun acquired => ?_
    cases acquired with
    | false => exact writeStatus_underway (setState_redraft ..)
    | true =>
      refine .handle (createBackupJob_underway hstart) (fun bk' => ?_) fun e => ?_
      · intro w ⟨hw, hcopy⟩
        exact writeStatus_underway (hcopy.trans (setState_redraft ..)) w hw
      · exact .handle onLock_underway (fun _ => terminalFail_underway (.refl bk))
          fun _ => terminalFail_underway (.refl bk)
  · exact (writeStatus_underway (setState_redraft ..)).pre fun w hw => hw.1

theorem reconcileRunning_underway (hstart : Startable start bk rs) :
    (reconcileRunning env bk rs).Maintains (Underway start bk) := by
  refine .bind (watchJob_underway hstart) fun r => ?_
  obtain ⟨bk', finished⟩ := r
  intro w ⟨hw, hcopy⟩
  cases finished with
  | true => exact (Action.Triple.bind onLock_underway fun _ => writeStatus_underway hcopy) w hw
  | false => exact writeStatus_underway hcopy w hw

theorem storageOf_ok (h : storageOf env w bk = .ok rs) :
    ∃ cluster, w.clusters bk.spec.clusterName = some cluster ∧
      resolveStorage cluster bk = .ok rs := by
  obtain ⟨cluster, hgot, hstorage⟩ := resolveDefaults_ok h
  cases hget : env.defaultsGet with
  | some e =>
    rw [hget] at hgot
    cases hgot
  | none =>
    rw [hget] at hgot
    exact ⟨cluster, Except.ok.inj hgot, hstorage⟩

theorem advance_underway (hlive : bk.deleting = false)
    (hfin : finalizerDeleteBackup ∈ bk.finalizers) :
    (advance env bk).Maintains (Underway start bk) := by
  refine .bind (.read fun w hw _ => hw) fun resolved => ?_
  cases resolved with
  | error e => exact (terminalFail_underway (.refl bk)).pre fun w hw => hw.1
  | ok rs =>
    rintro w ⟨hw, hread⟩
    have hstart : Startable start bk rs := by
      refine ⟨hlive, hfin, fun cluster hcluster => ?_⟩
      obtain ⟨cluster', hcluster', hstorage⟩ := storageOf_ok hread.symm
      rw [hw.clusters, hcluster] at hcluster'
      cases hcluster'
      exact hstorage
    have hcopy := hydrateStorage_redraft bk rs
    have hhydrated := hw.redraft hcopy
    have hback : ∀ w, Underway start (hydrateStorage bk rs) w → Underway start bk w :=
      fun w hw => hw.redraft ⟨bk.status, rfl⟩
    refine (show Action.Triple (Underway start (hydrateStorage bk rs)) _
      (fun _ => Underway start bk) (Underway start bk) from ?_) w hhydrated
    dsimp only
    split
    · exact (reconcileRunning_underway (hstart.redraft hcopy)).post (fun _ => hback) hback
    · exact (reconcileStart_underway (hstart.redraft hcopy)).post (fun _ => hback) hback

theorem ensureFinalizer_underway (hstored : start.backups bk.name = some bk)
    (hlive : bk.deleting = false) :
    (ensureFinalizer env bk).Triple (· = start)
      (fun bk' w => Underway start bk' w ∧ bk'.name = bk.name ∧ bk'.deleting = false ∧
        finalizerDeleteBackup ∈ bk'.finalizers)
      (Relation.ReflTransGen (Advances bk.name) start) := by
  refine ensureFinalizer_triple ?_ ?_ ?_
  · rintro hfin w rfl
    exact ⟨⟨.refl, rfl, bk, hstored, .refl bk⟩, rfl, hlive, hfin⟩
  · rintro w rfl
    exact .refl
  · rintro w _ rfl rfl
    have heffect := Relation.ReflTransGen.single (Advances.finalizer hstored)
    exact ⟨⟨⟨heffect, rfl, _, Function.update_self .., .refl _⟩, rfl, hlive, by simp⟩, heffect⟩

end Live

/-! ## A backup that is being deleted -/

theorem driveCleanup_cleans {rs : ResolvedStorage} {cluster : PerconaValkeyCluster}
    (hcluster : w.clusters bk.spec.clusterName = some cluster)
    (hstorage : resolveStorage cluster bk = .ok rs) :
    (driveCleanup env bk rs).Triple (· = w) (fun _ w' => w' = w ∨ Cleans bk w w')
      (fun w' => w' = w ∨ Cleans bk w w') := by
  refine .bind (.mapErr (.read fun v hv _ => .inl hv)) fun got => ?_
  cases got with
  | none =>
    refine .fixed fun hread => ?_
    refine .bind (getClusterFor_reads fun v hv => .inl hv) fun _ => ?_
    have hspawn := Cleans.job hcluster hstorage hread.symm
    exact .mapErr (.write (fun v hv => .inr (hv.1 ▸ hspawn)) (fun v hv => .inl hv.1)
      fun _ v _ hv => .inr (hv.1 ▸ hspawn))
  | some job =>
    refine .fixed fun hread => ?_
    dsimp only
    split
    · rename_i hcomplete
      have hfinalize := Cleans.finalize hread.symm hcomplete
      exact .mapErr (.write (fun v hv => .inr (hv ▸ hfinalize)) (fun v hv => .inl hv)
        fun _ v _ hv => .inr (hv ▸ hfinalize))
    split
    · rename_i hfailed
      have hdrop := Cleans.drop hread.symm hfailed
      exact .mapErr (.write (fun v hv => .inr (hv ▸ hdrop)) (fun v hv => .inl hv)
        fun _ v _ hv => .inr (hv ▸ hdrop))
    · exact .pure fun v hv => .inl hv

theorem releaseLock_sets {faults : LeaseReq → Option Fault} :
    (releaseLock faults bk).Triple (· = w)
      (fun _ v => ∃ lease, v = w.setLease bk.spec.clusterName lease)
      (fun v => ∃ lease, v = w.setLease bk.spec.clusterName lease) := by
  refine onLock_triple ?_
  rintro v rfl
  exact ⟨fun _ _ => ⟨_, rfl⟩, _, rfl⟩

theorem resolveStorageForCleanup_reads :
    (resolveStorageForCleanup env bk).Triple (· = w)
      (fun rs v => v = w ∧ ∃ cluster, v.clusters bk.spec.clusterName = some cluster ∧
        resolveStorage cluster bk = .ok rs)
      (· = w) := by
  refine .bind (getClusterFor_reads fun v hv => hv) fun cluster => ?_
  cases hstorage : resolveStorage cluster bk with
  | ok rs => exact .pure fun v hv => ⟨hv.1, cluster, hv.2, hstorage⟩
  | error e => exact .throw fun v hv => hv.1

theorem handleDeletion_does (hstored : w.backups bk.name = some bk) (hdeleting : bk.deleting = true) :
    (handleDeletion env bk).Triple (· = w) (fun _ => PassDoes bk.name w) (PassDoes bk.name w) := by
  unfold handleDeletion
  split
  · refine .pure ?_
    rintro v rfl
    exact .idle
  rename_i hfin
  have hrelease : ∀ v, (∃ lease, v = w.setLease bk.spec.clusterName lease) →
      PassDoes bk.name w v := by
    rintro v ⟨lease, rfl⟩
    exact .release hstored hdeleting _ lease
  refine .bind (releaseLock_sets.failing hrelease) fun _ => ?_
  rintro v ⟨lease, rfl⟩
  have hdone := hrelease _ ⟨lease, rfl⟩
  refine Action.Triple.handle resolveStorageForCleanup_reads (fun rs => ?_) (fun _ => ?_) _ rfl
  · refine .fixed fun ⟨cluster, hcluster, hstorage⟩ => ?_
    have hcleans : ∀ v, (v = w.setLease bk.spec.clusterName lease ∨
        Cleans bk (w.setLease bk.spec.clusterName lease) v) → PassDoes bk.name w v := by
      rintro v (rfl | heffect)
      · exact hdone
      · exact .clean hstored hdeleting (not_not.mp hfin) _ lease heffect
    exact (driveCleanup_cleans hcluster hstorage).post (fun _ => hcleans) hcleans
  · refine .pure ?_
    rintro v rfl
    exact hdone

theorem reconcile_triple {E : BackupWorld → Prop} (hidle : E w)
    (h : ∀ bk, w.backups name = some bk →
      (if bk.deleting then handleDeletion env bk
        else do
          let bk ← ensureFinalizer env bk
          if isTerminal bk then pure () else advance env bk).Triple (· = w) (fun _ => E) E) :
    (reconcile env name).Triple (· = w) (fun _ => E) E := by
  refine .bind (.read fun v hv _ => hv ▸ hidle) fun got => ?_
  cases got with
  | none => exact .pure fun v hv => hv.1 ▸ hidle
  | some bk => exact .fixed fun hread => h bk hread.symm

theorem reconcile_does (hname : ∀ bk, w.backups name = some bk → bk.name = name) :
    PassDoes name w ((reconcile env name).after w) := by
  refine (reconcile_triple .idle fun bk hread => ?_).after rfl
  obtain rfl := hname bk hread
  split
  · rename_i hdeleting
    exact handleDeletion_does hread hdeleting
  · rename_i hlive
    have hlive : bk.deleting = false := by simpa using hlive
    have hadvance : ∀ v, Relation.ReflTransGen (Advances bk.name) w v → PassDoes bk.name w v :=
      fun v heffects => .advance hread hlive heffects
    refine .bind ((ensureFinalizer_underway hread hlive).failing hadvance) fun bk' => ?_
    rintro v ⟨hunderway, hname', hlive', hfin⟩
    rw [← hname'] at hadvance ⊢
    suffices h : (if isTerminal bk' then pure () else advance env bk').Triple
        (Underway w bk') (fun _ => PassDoes bk'.name w) (PassDoes bk'.name w) from h v hunderway
    split
    · exact .pure fun v hv => hadvance v hv.effects
    · exact (advance_underway hlive' hfin).post (fun _ v hv => hadvance v hv.effects)
        fun v hv => hadvance v hv.effects

end ValkeyOperator.Backup

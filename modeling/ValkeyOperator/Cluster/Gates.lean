import ValkeyOperator.Cluster.Pipeline
import ValkeyOperator.Lib.Runs

/-! The two gates in front of the pipeline (`CheckNSetDefaults` of
`perconavalkeycluster_defaults.go` and the contract version gate).

Past the gates a pass works with an accepted contract version, and it is this one
that a pass which gets through records as observed: so along a run the observed
version never goes down. But the gates also come before the branch that deletes a
cluster, and what they hold back keeps its finalizers. -/

namespace ValkeyOperator.Cluster
open Text Valkey Api
open Backup (LeaseWorld)

variable {w : ClusterWorld} {o : ObjectMeta} {env : PassInputs} {crVersion operator v : Str}

/-! ## The observed contract version in the status -/

/-- Both copies of the status have this contract version as the one observed. -/
abbrev Board.Observed (v : Str) (b : Board) : Prop :=
  b.Both fun s => s.lastObservedCrVersion = v

namespace Board.Observed

variable {b : Board} {o : ObjectMeta} {v : Str}

theorem set (h : b.Observed v) (type : CondType) (status : Bool) (reason message : Str) :
    (b.set o type status reason message).Observed v := ⟨h.stored, h.mem⟩

theorem writeStatus (h : b.Observed v) (fault : Option Fault) :
    (b.writeStatus o fault).1.Observed v :=
  Both.writeStatus (fun s hs => by rw [Status.lastObservedCrVersion_applyDerivedState, hs]) h fault

theorem fail (h : b.Observed v) (fault : Option Fault) (reason : Str) (e : Err) :
    (b.fail o fault reason e).Observed v :=
  (h.set _ _ _ _).writeStatus fault

theorem degrade (h : b.Observed v) (fault : Option Fault) (reason : Str) (e : Err) :
    (b.degrade o fault reason e).Observed v :=
  ((h.set _ _ _ _).set _ _ _ _).writeStatus fault

theorem progress (h : b.Observed v) (fault : Option Fault) (reason message : Str) :
    (b.progress o fault reason message).Observed v :=
  (h.set _ _ _ _).writeStatus fault

theorem recordShards (h : b.Observed v) (cluster : PerconaValkeyCluster) (state : ClusterState) :
    (recordShards o cluster state b).Observed v := by
  unfold Cluster.recordShards
  dsimp only
  split <;> exact ⟨h.stored, h.mem⟩

end Board.Observed

theorem Recorded.observed {b b' : Board} {cause : Prop} (h : Recorded env o b cause b')
    (hb : b.Observed v) : b'.Observed v := by
  cases h with
  | untouched => exact hb
  | failed reason e => exact hb.fail _ _ _
  | degraded reason e h => exact hb.degrade _ _ _
  | progressed reason message => exact hb.progress _ _ _

theorem Noted.observed {lease : LeaseWorld} {configHash : Str} {s : PassState}
    {noted : Board × Option Err} (h : Noted env o lease configHash s noted)
    (hs : s.board.Observed v) : noted.1.Observed v := by
  cases h with
  | waiting => exact hs
  | creating => exact hs
  | rolling =>
    generalize rollReport _ _ _ _ _ _ = report
    cases report with
    | gated => exact hs.set _ _ _ _
    | held reason => exact (hs.set _ _ _ _).writeStatus _
    | refused message => exact ((hs.set _ _ _ _).set _ _ _ _).writeStatus _
    | failoverPending => exact (hs.set _ _ _ _).writeStatus _
    | stamps target failedOver =>
      cases failedOver
      · exact hs
      · exact hs.set _ _ _ _
    | _ => exact hs

theorem steppingBoard_observed {noted : Board × Option Err} (h : noted.1.Observed v) :
    (steppingBoard env o noted).Observed v := by
  unfold steppingBoard
  split
  · exact h.fail _ _ _
  · exact ((h.set _ _ _ _).set _ _ _ _).writeStatus _

/-- Only the last check of the verification records another version. -/
theorem verifyAndMarkReady_observed {fault : Option Fault} {cluster : PerconaValkeyCluster}
    {state : ClusterState} {b : Board} (h : b.Observed v) (crVersion : Str) :
    (verifyAndMarkReady o fault crVersion cluster state b).stored.lastObservedCrVersion = v ∨
      (verifyAndMarkReady o fault crVersion cluster state b).stored.lastObservedCrVersion =
        crVersion := by
  have hrecorded := h.recordShards (o := o) cluster state
  unfold verifyAndMarkReady
  dsimp only
  generalize recordShards o cluster state b = recorded at hrecorded ⊢
  split
  · exact .inl (((hrecorded.set _ _ _ _).set _ _ _ _).writeStatus fault).stored
  · rcases Board.writeStatus_stored o fault _ with hstored | hstored
    · rw [hstored]
      exact .inl hrecorded.stored
    · rw [hstored, Status.lastObservedCrVersion_applyDerivedState]
      exact .inr rfl

/-- A pass leaves the observed version as it is, or gets past the gates and
records the version it has worked with. -/
theorem Ended.observed {e : PassEnd} (h : Ended env w e) :
    e.pass.board.stored.lastObservedCrVersion = w.status.lastObservedCrVersion ∨
      ReachesNodes env w ∧ e.pass.board.stored.lastObservedCrVersion = w.contract env := by
  have hstart : w.start.board.Observed w.status.lastObservedCrVersion := ⟨rfl, rfl⟩
  cases h with
  | halted hshort hnone h => exact .inl (h.board.observed hstart).stored
  | tornDown h => exact .inl (congrArg (fun b => b.stored.lastObservedCrVersion) h.board)
  | stepped hreach h =>
    obtain ⟨noted, hnoted, hboard⟩ := h.board
    rw [hboard]
    exact .inl (steppingBoard_observed (hnoted.observed hstart)).stored
  | unscraped hreach h =>
    obtain ⟨b, hboard, hstored, -, -, hmem⟩ := h.board
    have hb : b.Observed w.status.lastObservedCrVersion :=
      ⟨congrArg Status.lastObservedCrVersion hstored, hmem⟩
    rw [hboard]
    exact .inl (hb.writeStatus _).stored
  | recovering hreach hstate h => exact .inl (h.board.observed hstart).stored
  | joining hreach hstate h => exact .inl (h.board.observed hstart).stored
  | scaling hreach h => exact .inl (h.board.observed hstart).stored
  | verified hreach hscaled hbalanced heffect hseen hboard =>
    rw [hboard]
    exact (verifyAndMarkReady_observed hstart (w.contract env)).imp_right
      fun hobserved => ⟨hreach.engines.nodes, hobserved⟩

/-! ## The contract version along a run -/

/-- Not newer than the operator, not lower than the observed version, and one of
the versions that the operator accepts. -/
structure Accepted (operator crVersion lastObserved : Str) : Prop where
  member : crVersion ∈ acceptedCrVersions (operatorMajorMinor operator)
  notNewer : toLex (majorMinor crVersion) ≤ toLex (majorMinor operator)
  notLower : lastObserved = [] ∨ toLex (majorMinor lastObserved) ≤ toLex (majorMinor crVersion)

/-- Nothing has been observed yet, or a version without negative numbers. -/
def Anchored (v : Str) : Prop := v = [] ∨ Natural v

/-- In the order of major and minor `v` is not below what was observed. -/
def NotBelow (observed v : Str) : Prop :=
  observed = [] ∨ v ≠ [] ∧ toLex (majorMinor observed) ≤ toLex (majorMinor v)

theorem versionText_ne_nil (major minor : Int) : versionText major minor ≠ [] := by
  simp [versionText]

theorem Natural.of_released (hop : Natural operator)
    (h : majorMinor crVersion = majorMinor operator ∨
      releasedBefore (majorMinor operator) = some (majorMinor crVersion)) : Natural crVersion := by
  unfold Natural at hop ⊢
  rcases h with heq | hbefore
  · rw [heq]
    exact hop
  · generalize majorMinor operator = op at hop hbefore
    obtain ⟨major, minor⟩ := op
    unfold releasedBefore lastMinorOfPriorMajor at hbefore
    dsimp only at hop hbefore
    split at hbefore
    · rw [← Option.some.inj hbefore]
      omega
    split at hbefore
    · rw [← Option.some.inj hbefore]
      omega
    · cases hbefore

theorem accepted_of_gate {lastObserved : Str} (hop : Natural operator)
    (hlast : Anchored lastObserved)
    (h : reconcileVersionGate operator crVersion lastObserved = .accepted) :
    Accepted operator crVersion lastObserved ∧ Natural crVersion := by
  obtain ⟨hmember, -⟩ := reconcileVersionGate_accepted.mp h
  have hreleased := (mem_acceptedCrVersions.mp hmember).2
  have hnatural := hop.of_released hreleased
  have hacceptable := ((reconcileVersionGate_accepted_iff hnatural hlast).mp h).2
  exact ⟨⟨hmember, (not_newer_of_released hreleased).1, hacceptable.notLower⟩, hnatural⟩

theorem Accepted.notBelow {lastObserved : Str} (h : Accepted operator crVersion lastObserved) :
    NotBelow lastObserved crVersion := by
  have hcanonical := (mem_acceptedCrVersions.mp h.member).1
  exact h.notLower.imp_right fun hle =>
    ⟨fun hnil => versionText_ne_nil _ _ (hcanonical.symm.trans hnil), hle⟩

theorem NotBelow.refl (v : Str) : NotBelow v v :=
  (em (v = [])).imp_right fun hne => ⟨hne, le_refl _⟩

theorem NotBelow.trans {a b c : Str} (hab : NotBelow a b) (hbc : NotBelow b c) : NotBelow a c := by
  rcases hab with hnil | ⟨hne, hle⟩
  · exact .inl hnil
  · rcases hbc with hnil | ⟨hne', hle'⟩
    · exact absurd hnil hne
    · exact .inr ⟨hne', hle.trans hle'⟩

/-- The operator that makes a pass is a release: its version begins with two
numbers. -/
def ByRelease (_ : ClusterWorld) (event : ClusterEvent) : Prop :=
  ∀ env, event = .pass env → Numbered env.operator

theorem step_observed {event : ClusterEvent} (hrelease : ByRelease w event)
    (hw : Anchored w.status.lastObservedCrVersion) :
    Anchored (w.step event).status.lastObservedCrVersion ∧
      NotBelow w.status.lastObservedCrVersion (w.step event).status.lastObservedCrVersion := by
  cases event with
  | pass env =>
    change Anchored (w.reconcile env).pass.board.stored.lastObservedCrVersion ∧
      NotBelow w.status.lastObservedCrVersion
        (w.reconcile env).pass.board.stored.lastObservedCrVersion
    rcases (reconcile_ended env w).observed with hsame | ⟨hreach, hnew⟩
    · rw [hsame]
      exact ⟨hw, .refl _⟩
    · obtain ⟨haccepted, hnatural⟩ :=
        accepted_of_gate (hrelease env rfl).natural hw hreach.accepted
      rw [hnew]
      exact ⟨.inr hnatural, haccepted.notBelow⟩
  | _ => exact ⟨hw, .refl _⟩

/-- The pass ends with the error of its gates: of all that is stored, only the status may
have changed. -/
structure EndsAtGate (env : PassInputs) (w : ClusterWorld) : Prop where
  error : gateStage env w.objectMeta (w.contract env) w.start = .error (w.reconcile env)
  kept : ∃ board, w.reconcile env = { pass := { w.start with board := board } }

theorem endsAtGate_of_error {e : PassEnd}
    (h : gateStage env w.objectMeta (w.contract env) w.start = .error e) : EndsAtGate env w := by
  have hend : w.reconcile env = e := by
    unfold ClusterWorld.reconcile ClusterWorld.opening
    rw [h]
    rfl
  rw [← hend] at h
  refine ⟨h, ?_⟩
  rw [hend] at h ⊢
  unfold gateStage at h
  split at h
  · cases h
    exact ⟨_, rfl⟩
  · split at h
    · cases h
    · cases h
      exact ⟨_, rfl⟩
    · cases h
      exact ⟨_, rfl⟩

/-- In every run from a cluster that is new to the operator, whatever releases of
the operator make the passes and however the contract version is edited: the
observed version never goes down, and a pass that does not end at a gate works with
an accepted version. -/
theorem contract_monotonic {start w w' : ClusterWorld}
    (hnew : start.status.lastObservedCrVersion = [])
    (hbefore : Runs ClusterWorld.step ByRelease start w)
    (hafter : Runs ClusterWorld.step ByRelease w w') :
    NotBelow w.status.lastObservedCrVersion w'.status.lastObservedCrVersion ∧
      ∀ env, ByRelease w' (.pass env) →
        Accepted env.operator (w'.contract env) w'.status.lastObservedCrVersion ∨
          EndsAtGate env w' := by
  have hanchored : Anchored w.status.lastObservedCrVersion :=
    hbefore.preserves (I := fun v => Anchored v.status.lastObservedCrVersion)
      (fun _ _ hrelease h => (step_observed hrelease h).1) (.inl hnew)
  obtain ⟨hanchored', hkept⟩ := hafter.preserves
    (I := fun v => Anchored v.status.lastObservedCrVersion ∧
      NotBelow w.status.lastObservedCrVersion v.status.lastObservedCrVersion)
    (fun v event hrelease h =>
      ⟨(step_observed hrelease h.1).1, h.2.trans (step_observed hrelease h.1).2⟩)
    ⟨hanchored, .refl _⟩
  refine ⟨hkept, fun env hrelease => ?_⟩
  cases hgate : gateStage env w'.objectMeta (w'.contract env) w'.start with
  | error e => exact .inr (endsAtGate_of_error hgate)
  | ok s =>
    obtain ⟨-, haccepted, -⟩ := gateStage_eq_ok.mp hgate
    exact .inl (accepted_of_gate (hrelease env rfl).natural hanchored' haccepted).1

theorem quietInputs_byRelease (engine : Str → NodeState × Bool) (w : ClusterWorld) :
    ByRelease w (.pass (quietInputs engine)) := by
  intro env henv
  cases henv
  exact ⟨"1", "0", ".0", by decide, by decide, .inr ⟨_, rfl⟩, rfl⟩

theorem formation_byRelease (engine : Str → NodeState × Bool) :
    ∀ event ∈ formation engine, ∀ w, ByRelease w event := by
  have hreport : ∀ w, ByRelease w (.report readyStatus) := fun w env henv => nomatch henv
  have hpass := quietInputs_byRelease engine
  simp only [formation, List.forall_mem_cons]
  exact ⟨hpass, hreport, hpass, hreport, hpass, List.forall_mem_nil _⟩

/-- A pair that has formed under 1.0, and a downgrade of its contract. -/
theorem contract_monotonic_pair :
    let formed := (formation pairEngines).foldl ClusterWorld.step (freshWorld pairCluster.spec)
    let lowered := formed.step (.edit pairCluster.spec "0.9" "h1")
    NotBelow formed.status.lastObservedCrVersion lowered.status.lastObservedCrVersion ∧
      (Accepted "1.0.0" (lowered.contract (quietInputs pairEngines))
          lowered.status.lastObservedCrVersion ∨
        EndsAtGate (quietInputs pairEngines) lowered) := by
  intro formed lowered
  have hedit : ByRelease formed (.edit pairCluster.spec "0.9" "h1") :=
    fun env henv => nomatch henv
  have hnew : (freshWorld pairCluster.spec).status.lastObservedCrVersion = [] := rfl
  obtain ⟨hkept, hpast⟩ := contract_monotonic hnew
    (Runs.of_forall (formation_byRelease pairEngines) _) (Runs.extend .refl hedit)
  exact ⟨hkept, hpast (quietInputs pairEngines) (quietInputs_byRelease pairEngines _)⟩

/-! ## Deletion behind the gates -/

/-- The part of a schedule entry that is validated. -/
structure BackupScheduleSpec where
  name : Str
  storageName : Str

/-- The first entry whose storage is not among the storages is an error. -/
def validateBackupStorages (schedule : List BackupScheduleSpec)
    (storages : GoMap Str BackupStorageSpec) : Option Err :=
  (schedule.find? fun s => !decide (s.storageName ∈ storages)).map fun s =>
    { msg := "backup.schedule[" ++ quote s.name ++ "]: unknown storageName " ++
        quote s.storageName ++ " (not in spec.backup.storages)" }

theorem validateBackupStorages_eq_none {schedule : List BackupScheduleSpec}
    {storages : GoMap Str BackupStorageSpec} :
    validateBackupStorages schedule storages = none ↔ ∀ s ∈ schedule, s.storageName ∈ storages := by
  simp [validateBackupStorages]

/-- The calls of the teardown go through. -/
structure TeardownCalls (env : PassInputs) : Prop where
  listed : env.phase .nodeList = none
  deleted : env.delete = none
  finished : env.teardown = none

/-- As long as the cluster has its finalizers, every pass of the operator whose calls
go through moves the teardown on: it asks for the deletion of the next node, and
removes the finalizers once no node is left. -/
def TeardownProceeds (operator : Str) (schedule : List BackupScheduleSpec) (w : ClusterWorld) :
    Prop :=
  ∀ env : PassInputs, env.operator = operator →
    env.defaults = validateBackupStorages schedule w.cluster.spec.storages → TeardownCalls env →
    w.finalizers = true → ∀ nodes leaving,
      let e := ClusterWorld.reconcile env { w with nodes := nodes, leaving := leaving }
      (nodes = [] → e.pass.finalizers = false) ∧
        ∀ n, nextTeardownNode env.nodeSorter nodes leaving = some n → n.name ∉ leaving →
          e.effect = .delete n ∧ e.pass.leaving = n.name :: leaving

/-- What both gates let through. -/
structure PassesGates (operator : Str) (schedule : List BackupScheduleSpec) (w : ClusterWorld) :
    Prop where
  storages : ∀ s ∈ schedule, s.storageName ∈ w.cluster.spec.storages
  member : stampCrVersion operator w.crVersion ∈ acceptedCrVersions (operatorMajorMinor operator)
  notLower : w.status.lastObservedCrVersion = [] ∨
    0 ≤ compareMajorMinor (stampCrVersion operator w.crVersion) w.status.lastObservedCrVersion

theorem nextTeardownNode_nil (S : Sorter ValkeyNode) (leaving : List Str) :
    nextTeardownNode S [] leaving = none := by
  have hsorted : S.sort byTeardown [] = [] := List.Perm.eq_nil (S.perm byTeardown [])
  simp [nextTeardownNode, hsorted]

theorem reconcile_teardown (hdeleting : w.deleting = true)
    (hgate : gateStage env w.objectMeta (w.contract env) w.start = .ok w.start) :
    w.reconcile env = handleDeletion env w.objectMeta w.start := by
  unfold ClusterWorld.reconcile ClusterWorld.opening
  rw [hgate]
  change Staged.result ((if w.deleting = true then _ else _) >>= _) = _
  rw [if_pos hdeleting]
  rfl

theorem handleDeletion_proceeds {s : PassState} (hcalls : TeardownCalls env)
    (hfinalizers : s.finalizers = true) :
    (s.nodes = [] → (handleDeletion env o s).pass.finalizers = false) ∧
      ∀ n, nextTeardownNode env.nodeSorter s.nodes s.leaving = some n → n.name ∉ s.leaving →
        (handleDeletion env o s).effect = .delete n ∧
          (handleDeletion env o s).pass.leaving = n.name :: s.leaving := by
  unfold handleDeletion
  rw [hfinalizers, hcalls.listed]
  constructor
  · intro hnone
    rw [hnone, nextTeardownNode_nil, hcalls.finished]
    rfl
  · intro n hnext hfresh
    rw [hnext]
    simp [hfresh, PassState.delete, deleteEffect, hcalls.deleted]

/-- A deleting cluster that has its finalizers is torn down exactly if its schedule
names known storages and its contract version is accepted. -/
theorem teardown_proceeds_iff {operator : Str} {schedule : List BackupScheduleSpec}
    {w : ClusterWorld} (hdeleting : w.deleting = true) :
    TeardownProceeds operator schedule w ↔
      (w.finalizers = true → PassesGates operator schedule w) := by
  constructor
  · intro h hfinalizers
    let env : PassInputs := { quietInputs pairEngines with
      operator := operator
      defaults := validateBackupStorages schedule w.cluster.spec.storages }
    let bare : ClusterWorld := { w with nodes := [], leaving := [] }
    have hremoved := (h env rfl rfl ⟨rfl, rfl, rfl⟩ hfinalizers [] []).1 rfl
    cases hgate : gateStage env bare.objectMeta (bare.contract env) bare.start with
    | error e =>
      -- the pass has changed the status at most
      obtain ⟨board, hend⟩ := (endsAtGate_of_error hgate).kept
      rw [hend] at hremoved
      exact absurd (hfinalizers.symm.trans hremoved) (by decide)
    | ok s =>
      obtain ⟨hdefaults, haccepted, -⟩ := gateStage_eq_ok.mp hgate
      obtain ⟨hmember, hlower⟩ := reconcileVersionGate_accepted.mp haccepted
      exact ⟨validateBackupStorages_eq_none.mp hdefaults, hmember, hlower⟩
  · intro hpasses env hop hdefaults hcalls hfinalizers nodes leaving
    have h := hpasses hfinalizers
    subst hop
    let left : ClusterWorld := { w with nodes := nodes, leaving := leaving }
    have hgate : gateStage env left.objectMeta (left.contract env) left.start = .ok left.start :=
      gateStage_eq_ok.mpr ⟨hdefaults.trans (validateBackupStorages_eq_none.mpr h.storages),
        reconcileVersionGate_accepted.mpr ⟨h.member, h.notLower⟩, rfl⟩
    dsimp only
    rw [reconcile_teardown (w := left) hdeleting hgate]
    exact handleDeletion_proceeds (s := left.start) hcalls hfinalizers

/-- The pair after it has formed under 1.0, deleted and without its nodes. -/
def deletedPair : ClusterWorld :=
  { (formation pairEngines).foldl ClusterWorld.step (freshWorld pairCluster.spec) with
    deleting := true, nodes := [] }

theorem teardown_proceeds_pair :
    TeardownProceeds "1.1.0" [] deletedPair ↔
      (deletedPair.finalizers = true → PassesGates "1.1.0" [] deletedPair) :=
  teardown_proceeds_iff rfl

/-- An operator two minor versions ahead keeps the finalizers of a cluster without
nodes. -/
theorem teardown_stalls_behind_gate :
    let env : PassInputs := { quietInputs pairEngines with operator := "1.2.0" }
    deletedPair.deleting = true ∧ deletedPair.nodes = [] ∧ TeardownCalls env ∧
      env.defaults = validateBackupStorages [] deletedPair.cluster.spec.storages ∧
      (deletedPair.reconcile env).pass.finalizers = true :=
  ⟨rfl, rfl, ⟨rfl, rfl, rfl⟩, rfl, by decide +kernel⟩

end ValkeyOperator.Cluster

import ValkeyOperator.Cluster.Pipeline
import ValkeyOperator.Lib.Runs

/-! The Degraded condition along the runs of the cluster controller.

Once a pass has set Degraded, it is cleared at the end of a pass that gets through,
or by a failover that the roll itself completes. An image roll that is pending lets
no pass get through, and the gate of such a roll asks that Degraded is not set: so
the gate stays open in runs that never set it, and closes for good in others. -/

namespace ValkeyOperator.Cluster
open Text Valkey Api
open Backup (LeaseWorld)

variable {o : ObjectMeta} {env : PassInputs}

/-! ## Passes that do not set Degraded -/

abbrev Board.Undegraded (b : Board) : Prop := b.Both fun s => s.conditionTrue .degraded = false

namespace Board.Undegraded

variable {b : Board} {o : ObjectMeta}

theorem set (h : b.Undegraded) {type : CondType} {status : Bool} {reason message : Str}
    (hother : type = .degraded → status = false) :
    (b.set o type status reason message).Undegraded := by
  refine ⟨h.stored, ?_⟩
  rw [Board.set, Status.conditionTrue_setCondition]
  split
  · rename_i htype
    exact hother htype.symm
  · exact h.mem

theorem writeStatus (h : b.Undegraded) (fault : Option Fault) :
    (b.writeStatus o fault).1.Undegraded :=
  Both.writeStatus (by simp) h fault

theorem fail (h : b.Undegraded) (fault : Option Fault) (reason : Str) (e : Err) :
    (b.fail o fault reason e).Undegraded :=
  (h.set (by simp)).writeStatus fault

theorem progress (h : b.Undegraded) (fault : Option Fault) (reason message : Str) :
    (b.progress o fault reason message).Undegraded :=
  (h.set (by simp)).writeStatus fault

theorem notReady (h : b.Undegraded) (fault : Option Fault) (reason message : Str) :
    (notReady o fault reason message b).Undegraded :=
  ((h.set (by simp)).set (by simp)).writeStatus fault

theorem recordShards (h : b.Undegraded) (cluster : PerconaValkeyCluster) (state : ClusterState) :
    (recordShards o cluster state b).Undegraded := by
  have hcounted : ∀ shards ready, Board.Undegraded
      { b with mem := { b.mem with shards := shards, readyShards := ready } } :=
    fun _ _ => ⟨h.stored, h.mem⟩
  unfold Cluster.recordShards
  dsimp only
  split
  · exact ((hcounted _ _).set (by simp)).set (by simp)
  · exact (hcounted _ _).set (by simp)

theorem verifyAndMarkReady (h : b.Undegraded) (fault : Option Fault) (crVersion : Str)
    (cluster : PerconaValkeyCluster) (state : ClusterState) :
    (verifyAndMarkReady o fault crVersion cluster state b).Undegraded := by
  have hrecorded := h.recordShards (o := o) cluster state
  unfold Cluster.verifyAndMarkReady
  dsimp only
  generalize Cluster.recordShards o cluster state b = recorded at hrecorded ⊢
  split
  · exact hrecorded.notReady _ _ _
  · apply Undegraded.writeStatus
    exact ⟨hrecorded.stored, (((hrecorded.set (by simp)).set (by simp)).set (by simp)).mem⟩

end Board.Undegraded

theorem Recorded.undegraded {b b' : Board} {cause : Prop} (h : Recorded env o b cause b')
    (hb : b.Undegraded) (hcause : ¬ cause) : b'.Undegraded := by
  cases h with
  | untouched => exact hb
  | failed reason e => exact hb.fail _ _ _
  | degraded reason e h => exact absurd h hcause
  | progressed reason message => exact hb.progress _ _ _

/-- The pass comes to the gate of a roll: nothing ends it before, every position has its
node, and neither a backup or restore nor a node in the middle of its roll holds it back. -/
structure ReachesGate (env : PassInputs) (w : ClusterWorld) : Prop where
  nodes : ReachesNodes env w
  filled : ∀ key ∈ desiredNodes (w.wanted env),
    (existing (w.listed env) (keyName (w.wanted env).name key)).isSome
  ungated : shouldGateEngineRoll (w.wanted env) = false
  settled : Settled (w.wanted env) (w.listed env) w.configHash

/-- The pass meets nothing that it reports as Degraded. -/
structure Undegrading (env : PassInputs) (w : ClusterWorld) : Prop where
  opening : ¬ OpeningDegrades env w
  takeover : ReachesEngines env w → ∀ id, env.takeover id = none
  /-- the update policy does not refuse the image -/
  line : ReachesGate env w → ∀ current,
    pendingEngineChange (w.wanted env) (w.listed env) = some current →
      classifyEngineChange current (w.wanted env).spec.image ≠ .featureLineDowngrade
  /-- if the gate is open, a failover that is due for the next node does not stay incomplete -/
  failover : ReachesGate env w →
    reconcileSmartUpdate (rollInputs env w.lease w.start.board).gate (w.wanted env) (w.listed env)
      (env.scrape (w.listed env)) = .allow →
    ∀ t, nextRollCandidate env.nodeSorter (w.wanted env) (w.listed env)
        (env.scrape (w.listed env)) w.configHash = some t →
      ∀ shardID, failoverOf env.failover (env.scrape (w.listed env)) t ≠ some (shardID, .ok false)

theorem takeOverEach_ok (h : ∀ id, env.takeover id = none) (state : ClusterState)
    (primaries : List NodeState) (acted : Bool) :
    (takeOverEach env state primaries acted).2 = none := by
  induction primaries generalizing acted with
  | nil => rfl
  | cons primary rest ih =>
    unfold takeOverEach
    split
    · exact ih acted
    · simp only [h]
      exact ih true

theorem Undegrading.not_takeoverFails {w : ClusterWorld} (h : Undegrading env w)
    (hreach : ReachesEngines env w) (s : PassState) (state : ClusterState) :
    ¬ TakeoverFails env s state := by
  unfold TakeoverFails promoteOrphanedReplicas
  split
  · simp
  split
  · simp
  · simp [takeOverEach_ok (h.takeover hreach)]

section RollReport

variable {S : Sorter ValkeyNode} {r : RollInputs} {cluster : PerconaValkeyCluster}
  {nodes : List ValkeyNode} {state : Option ClusterState} {configHash : Str}

/-- What stands behind the two reports that set Degraded. -/
inductive RollReport.Degrades (r : RollInputs) (cluster : PerconaValkeyCluster)
    (nodes : List ValkeyNode) (state : Option ClusterState) (configHash : Str)
    (S : Sorter ValkeyNode) : RollReport → Prop
  | refused {current message : Str} (hungated : shouldGateEngineRoll cluster = false)
      (hsettled : Settled cluster nodes configHash)
      (hcurrent : pendingEngineChange cluster nodes = some current)
      (hdown : classifyEngineChange current cluster.spec.image = .featureLineDowngrade) :
      Degrades r cluster nodes state configHash S (.refused message)
  | pending {t : ValkeyNode} {shardID : Str} (hungated : shouldGateEngineRoll cluster = false)
      (hsettled : Settled cluster nodes configHash)
      (hallowed : reconcileSmartUpdate r.gate cluster nodes state = .allow)
      (hnext : nextRollCandidate S cluster nodes state configHash = some t)
      (hfailover : failoverOf r.failover state t = some (shardID, .ok false)) :
      Degrades r cluster nodes state configHash S .failoverPending

theorem reconcileSmartUpdate_eq_refuse {g : GateInputs} {message : Str}
    (h : reconcileSmartUpdate g cluster nodes state = .refuse message) :
    ∃ current, pendingEngineChange cluster nodes = some current ∧
      classifyEngineChange current cluster.spec.image = .featureLineDowngrade := by
  unfold reconcileSmartUpdate at h
  split at h
  · cases h
  split at h
  · cases h
  · rename_i current hcurrent
    refine ⟨current, hcurrent, ?_⟩
    by_contra hdown
    rw [applyEngineDowngradePolicy, if_neg hdown] at h
    split at h
    · cases ‹none = some _›
    · split at h <;> cases h

/-- The other reports leave Degraded as it is or clear it. -/
theorem rollReport_note {b : Board} (hb : b.Undegraded) :
    ((rollReport S r cluster nodes state configHash).note env o b).1.Undegraded ∨
      RollReport.Degrades r cluster nodes state configHash S
        (rollReport S r cluster nodes state configHash) := by
  unfold rollReport
  split
  · exact .inl (hb.set (by simp))
  rename_i hungated
  rw [Bool.not_eq_true] at hungated
  split
  · exact .inl hb
  rename_i hsettled
  rw [Bool.not_eq_true, midRollNode_isSome] at hsettled
  split
  · exact .inl ((hb.set (by simp)).writeStatus _)
  · rename_i message hrefuse
    obtain ⟨current, hcurrent, hdown⟩ := reconcileSmartUpdate_eq_refuse hrefuse
    exact .inr (.refused hungated hsettled hcurrent hdown)
  rename_i hallowed
  split
  · exact .inl hb
  · rename_i t hnext
    split
    · exact .inl hb
    · exact .inl hb
    · rename_i shardID hfailover
      exact .inr (.pending hungated hsettled hallowed hnext hfailover)
    · exact .inl (hb.set (by simp))

end RollReport

theorem steppingBoard_undegraded {noted : Board × Option Err} (h : noted.1.Undegraded) :
    (steppingBoard env o noted).Undegraded := by
  unfold steppingBoard
  split
  · exact h.fail _ _ _
  · exact ((h.set (by simp)).set (by simp)).writeStatus _

/-- However such a pass ends, it has not set Degraded. -/
theorem Ended.undegraded {w : ClusterWorld} {e : PassEnd} (h : Ended env w e)
    (hcalm : Undegrading env w) (hw : w.status.conditionTrue .degraded = false) :
    e.pass.board.stored.conditionTrue .degraded = false := by
  have hstart : w.start.board.Undegraded := ⟨hw, hw⟩
  cases h with
  | halted hshort hnone h => exact (h.board.undegraded hstart hcalm.opening).stored
  | tornDown h => rw [h.board]; exact hw
  | stepped hreach h =>
    obtain ⟨noted, hnoted, hboard⟩ := h.board
    rw [hboard]
    refine (steppingBoard_undegraded ?_).stored
    cases hnoted with
    | waiting => exact hstart
    | creating => exact hstart
    | rolling hdecision =>
      have hfilled := filled_of_roll hdecision
      rcases rollReport_note hstart with hnote | hdegrades
      · exact hnote
      · generalize hreport : rollReport _ _ _ _ _ _ = report at hdegrades ⊢
        cases hdegrades with
        | refused hungated hsettled hcurrent hdown =>
          exact absurd hdown (hcalm.line ⟨hreach, hfilled, hungated, hsettled⟩ _ hcurrent)
        | pending hungated hsettled hallowed hnext hfailover =>
          exact absurd hfailover
            (hcalm.failover ⟨hreach, hfilled, hungated, hsettled⟩ hallowed _ hnext _)
  | unscraped hreach h =>
    obtain ⟨b, hboard, hstored, -, hmem, -⟩ := h.board
    have hb : b.Undegraded := ⟨hstored ▸ hw, hmem.trans hw⟩
    rw [hboard]
    exact (hb.writeStatus _).stored
  | recovering hreach hstate h =>
    exact (h.board.undegraded hstart (hcalm.not_takeoverFails hreach _ _)).stored
  | joining hreach hstate h => exact (h.board.undegraded hstart not_false).stored
  | scaling hreach h => exact (h.board.undegraded hstart not_false).stored
  | verified hreach hscaled hbalanced heffect hseen hboard =>
    rw [hboard]
    exact (hstart.verifyAndMarkReady _ _ _ _).stored

/-! ## The gate stays open -/

/-- The packed number orders the lines as they are: the minor version has two
digits and nothing wraps. -/
def EngineVersion.Packs (v : EngineVersion) : Prop :=
  0 ≤ v.minor ∧ v.minor < 100 ∧ -2 ^ 63 ≤ v.major * 100 + v.minor ∧ v.major * 100 + v.minor < 2 ^ 63

theorem EngineVersion.Packs.line_eq {v : EngineVersion} (h : v.Packs) :
    v.line = v.major * 100 + v.minor := by
  obtain ⟨-, -, hlow, hhigh⟩ := h
  exact Int.bmod_eq_of_le (by omega) (by omega)

theorem classifyEngineChange_ne_downgrade {current target : Str}
    (hcurrent : (parseEngineVersion current).Packs) (htarget : (parseEngineVersion target).Packs)
    (hline : ¬ (parseEngineVersion target).LineBelow (parseEngineVersion current)) :
    classifyEngineChange current target ≠ .featureLineDowngrade := by
  intro hdown
  unfold classifyEngineChange at hdown
  dsimp only at hdown
  split at hdown
  · cases hdown
  rename_i hknown
  split at hdown
  · rename_i hlower
    rw [hcurrent.line_eq, htarget.line_eq] at hlower
    simp only [Bool.or_eq_true, Bool.not_eq_true', not_or, Bool.not_eq_false] at hknown
    refine hline ⟨hknown.2, hknown.1, ?_⟩
    have hcurrentMinor := hcurrent.1
    have htargetMinor := htarget.1
    have hcurrentDigits := hcurrent.2.1
    have htargetDigits := htarget.2.1
    omega
  · split at hdown
    · cases hdown
    · split at hdown <;> cases hdown

/-- In every run whose passes meet nothing that they report as Degraded, the gate
lets a pending image roll go on as soon as the scrape is healthy, no backup holds
the lock and the line is not lowered. -/
theorem gate_allows_of_undegrading {start w : ClusterWorld}
    (hstart : start.status.conditionTrue .degraded = false)
    (hrun : Runs ClusterWorld.step
      (fun w event => ∀ env, event = .pass env → Undegrading env w) start w)
    (env : PassInputs) (hlisted : env.gateList = none) (current : Str)
    (hpending : pendingEngineChange (w.wanted env) (w.listed env) = some current)
    (hhealthy : Healthy (env.scrape (w.listed env))) (hfree : ¬ LeaseHeld w.lease)
    (hcurrent : (parseEngineVersion current).Packs)
    (htarget : (parseEngineVersion (w.wanted env).spec.image).Packs)
    (hline : ¬ (parseEngineVersion (w.wanted env).spec.image).LineBelow
      (parseEngineVersion current)) :
    reconcileSmartUpdate (rollInputs env w.lease w.start.board).gate (w.wanted env) (w.listed env)
      (env.scrape (w.listed env)) = .allow := by
  have hdegraded : w.status.conditionTrue .degraded = false := by
    refine hrun.preserves (I := fun w => w.status.conditionTrue .degraded = false) ?_ hstart
    intro w event hcalm hw
    cases event with
    | pass env => exact (reconcile_ended env w).undegraded (hcalm env rfl) hw
    | _ => exact hw
  refine reconcileSmartUpdate_eq_allow.mpr ⟨hlisted, fun current' hcurrent' => ?_⟩
  rw [hpending, Option.some.injEq] at hcurrent'
  subst hcurrent'
  refine ⟨classifyEngineChange_ne_downgrade hcurrent htarget hline, ?_⟩
  refine smartUpdateAllowed_eq_none.mpr ⟨?_, hdegraded, hhealthy⟩
  exact Bool.eq_false_iff.mpr fun hrunning => hfree (backupRunning_iff.mp hrunning).2

/-- A formed pair at 8.0 whose image is set to 8.1. -/
def editedPair : ClusterWorld :=
  (formation pairEngines ++ [ClusterEvent.edit pairCluster.spec "1.0" "h1"]).foldl
    ClusterWorld.step (freshWorld { pairCluster.spec with image := "valkey:8.0" })

/-- The replica has been rolled. -/
def rollingPair : ClusterWorld :=
  (editedPair.step (.pass (quietInputs pairEngines))).step (.report readyStatus)

theorem editedPair_undegrading : Undegrading (quietInputs pairEngines) editedPair where
  opening := by
    rintro (htls | ⟨reason, message, hrefused⟩)
    · exact htls rfl
    · have haccepted : reconcileVersionGate (quietInputs pairEngines).operator
          (editedPair.contract (quietInputs pairEngines)) editedPair.status.lastObservedCrVersion =
          .accepted := by decide
      exact absurd (haccepted.symm.trans hrefused) (by simp)
  takeover := fun _ _ => rfl
  line := by
    have hpending : pendingEngineChange (editedPair.wanted (quietInputs pairEngines))
        (editedPair.listed (quietInputs pairEngines)) = some "valkey:8.0".toList := by decide
    intro _ current hcurrent
    rw [hpending, Option.some.injEq] at hcurrent
    subst hcurrent
    decide
  failover := by
    -- the replica comes first, and no failover is made for it
    have hnext : ((nextRollCandidate (quietInputs pairEngines).nodeSorter
        (editedPair.wanted (quietInputs pairEngines)) (editedPair.listed (quietInputs pairEngines))
        ((quietInputs pairEngines).scrape (editedPair.listed (quietInputs pairEngines)))
        editedPair.configHash).bind (failoverOf (quietInputs pairEngines).failover
          ((quietInputs pairEngines).scrape (editedPair.listed (quietInputs pairEngines))))).isSome =
        false := by decide
    intro _ _ t ht shardID hfailover
    rw [ht, Option.bind_some, hfailover] at hnext
    cases hnext

theorem not_leaseHeld_noBackup : ¬ LeaseHeld noBackup := by
  rintro ⟨l, hstored, -⟩
  cases hstored

theorem gate_allows_rollingPair :
    reconcileSmartUpdate (rollInputs (quietInputs pairEngines) rollingPair.lease
        rollingPair.start.board).gate (rollingPair.wanted (quietInputs pairEngines))
      (rollingPair.listed (quietInputs pairEngines))
      ((quietInputs pairEngines).scrape (rollingPair.listed (quietInputs pairEngines))) = .allow := by
  have hrun : Runs ClusterWorld.step
      (fun w event => ∀ env, event = .pass env → Undegrading env w) editedPair rollingPair := by
    have hpass : ∀ env, ClusterEvent.pass (quietInputs pairEngines) = .pass env →
        Undegrading env editedPair := by
      rintro _ ⟨⟩
      exact editedPair_undegrading
    exact (Runs.extend .refl hpass).extend (by simp)
  refine gate_allows_of_undegrading (by decide) hrun _ rfl "valkey:8.0"
    (by decide) ⟨_, rfl, by decide, by decide, by decide⟩ not_leaseHeld_noBackup ?_ ?_ ?_
  · exact ⟨by decide, by decide, by decide, by decide⟩
  · exact ⟨by decide, by decide, by decide, by decide⟩
  · exact fun hbelow => absurd hbelow.2.2 (by decide)

/-- The failover before the primary's roll does not complete in time. -/
def stalledPair : ClusterWorld :=
  rollingPair.step
    (.pass { quietInputs pairEngines with failover := { flips := fun _ => false } })

/-- A newly created cluster reaches a state in which the next pass finds an image
roll pending and the engines healthy, without a backup or a downgrade, and is held
back by the Degraded condition that the roll itself has set. -/
theorem stalledPair_held_back :
    Runs ClusterWorld.step (fun _ _ => True)
      (freshWorld { pairCluster.spec with image := "valkey:8.0" }) stalledPair ∧
    pendingEngineChange (stalledPair.wanted (quietInputs pairEngines))
      (stalledPair.listed (quietInputs pairEngines)) = some "valkey:8.0".toList ∧
    Healthy ((quietInputs pairEngines).scrape
      (stalledPair.listed (quietInputs pairEngines))) ∧
    ¬ LeaseHeld stalledPair.lease ∧
    ¬ (parseEngineVersion (stalledPair.wanted (quietInputs pairEngines)).spec.image).LineBelow
      (parseEngineVersion "valkey:8.0") ∧
    reconcileSmartUpdate (rollInputs (quietInputs pairEngines) stalledPair.lease
        stalledPair.start.board).gate (stalledPair.wanted (quietInputs pairEngines))
      (stalledPair.listed (quietInputs pairEngines))
      ((quietInputs pairEngines).scrape (stalledPair.listed (quietInputs pairEngines))) =
      .hold upgradeGatedNotReady := by
  refine ⟨?_, by decide, ⟨_, rfl, by decide, by decide, by decide⟩, not_leaseHeld_noBackup,
    fun hbelow => absurd hbelow.2.2 (by decide), by decide⟩
  exact (((Runs.of_events (fun _ _ => trivial) _ _).extend trivial).extend trivial).extend trivial

end ValkeyOperator.Cluster

import ValkeyOperator.Cluster.Pipeline

/-! What a pass does while a backup holds the lock.

The lease of a running backup is looked at by the gate for image rolls only. A
config roll, the teardown, the scale-in and the rebalancing go on as if there were
no backup, so the topology stays frozen only as long as none of them has anything
to do. -/

namespace ValkeyOperator.Cluster
open Text Valkey Api
open Backup (LeaseWorld)

variable {state : ClusterState} {w : ClusterWorld} {env : PassInputs}

/-- The effect rolls a node, moves slots or deletes a node. -/
def Effect.disturbs : Effect → Bool
  | .stamp _ | .delete _ | .migrate _ => true
  | _ => false

/-! ## The gate under a held lease -/

/-- The image roll is held back: a downgrade is refused, the lease is read, or the
cluster is not fit for a roll. -/
def HeldBack (env : PassInputs) (w : ClusterWorld) (current : Str) : Prop :=
  classifyEngineChange current (w.wanted env).spec.image = .featureLineDowngrade ∨
    env.leaseFault = none ∨ w.status.conditionTrue .degraded = true ∨
    ¬ Healthy (env.scrape (w.listed env))

theorem heldBack_iff (h : LeaseHeld w.lease) (current : Str) :
    HeldBack env w current ↔
      ¬ (classifyEngineChange current (w.wanted env).spec.image ≠ .featureLineDowngrade ∧
        smartUpdateAllowed (rollInputs env w.lease w.start.board).gate (w.wanted env)
          (env.scrape (w.listed env)) = none) := by
  have hrunning : backupRunning (rollInputs env w.lease w.start.board).gate (w.wanted env) = true ↔
      env.leaseFault = none := backupRunning_iff.trans (and_iff_left h)
  have hdegraded : (rollInputs env w.lease w.start.board).gate.degraded =
      w.status.conditionTrue .degraded := rfl
  rw [smartUpdateAllowed_eq_none, hdegraded, ← Bool.not_eq_true, hrunning]
  unfold HeldBack
  cases w.status.conditionTrue .degraded <;> simp
  tauto

/-! ## What goes on all the same -/

/-- Nothing is due that a pass does without asking for the lease. -/
structure Calm (env : PassInputs) (w : ClusterWorld) : Prop where
  teardown : ∀ n, ¬ TeardownDue env w n
  /-- a node is next in line only for a new image, and then the roll is held back -/
  roll : ReachesNodes env w → ∀ t,
    InLine env.nodeSorter (rollInputs env w.lease w.start.board) (w.wanted env) (w.listed env)
      (env.scrape (w.listed env)) w.configHash t →
    Promoted env.failover (env.scrape (w.listed env)) t → env.gateList = none →
    ∃ current, pendingEngineChange (w.wanted env) (w.listed env) = some current ∧
      HeldBack env w current
  delete : ∀ state, ReachesScaling env w state → ∀ n, DeletionDue env (w.opened env) state n →
    env.delete ≠ none
  move : ∀ state, ReachesScaling env w state → ∀ move, MoveDue env (w.opened env) state move →
    ¬ Sends env state move

/-- The node that the stepping of the pass stamps. -/
def ClusterWorld.rolled (env : PassInputs) (w : ClusterWorld) : Option ValkeyNode :=
  rollTarget env.nodeSorter (rollInputs env w.lease w.start.board) (w.wanted env) (w.listed env)
    (env.scrape (w.listed env)) w.configHash

theorem rolled_eq_none (h : LeaseHeld w.lease) :
    w.rolled env = none ↔ ∀ t,
      InLine env.nodeSorter (rollInputs env w.lease w.start.board) (w.wanted env) (w.listed env)
        (env.scrape (w.listed env)) w.configHash t →
      Promoted env.failover (env.scrape (w.listed env)) t → env.gateList = none →
      ∃ current, pendingEngineChange (w.wanted env) (w.listed env) = some current ∧
        HeldBack env w current := by
  rw [Option.eq_none_iff_forall_ne_some]
  refine forall_congr' fun t => ?_
  unfold ClusterWorld.rolled
  rw [Ne, rollTarget_eq_some, reconcileSmartUpdate_eq_allow]
  simp only [heldBack_iff h]
  constructor
  · intro hnot hline hpromoted hlisted
    by_contra hnone
    refine hnot ⟨hline, ⟨hlisted, fun current hcurrent => ?_⟩, hpromoted⟩
    by_contra hheld
    exact hnone ⟨current, hcurrent, hheld⟩
  · rintro hcalm ⟨hline, ⟨hlisted, hallowed⟩, hpromoted⟩
    obtain ⟨current, hcurrent, hheld⟩ := hcalm hline hpromoted hlisted
    exact hheld (hallowed current hcurrent)

theorem rolled_of_reachesEngines (h : ReachesEngines env w) : w.rolled env = none := by
  refine Option.eq_none_iff_forall_ne_some.mpr fun t htarget => ?_
  obtain ⟨hline, -, -⟩ := rollTarget_eq_some.mp htarget
  obtain ⟨hmem, hroll⟩ := mem_of_nextRollCandidate hline.next
  have := List.any_eq_false.mp h.rolled t hmem
  exact this hroll

/-- A pass that goes past the node stepping is calm if the scaling is. -/
theorem ReachesEngines.calm_iff (hheld : LeaseHeld w.lease) (h : ReachesEngines env w) :
    Calm env w ↔
      (∀ state, ReachesScaling env w state → ∀ n, DeletionDue env (w.opened env) state n →
        env.delete ≠ none) ∧
      ∀ state, ReachesScaling env w state → ∀ move, MoveDue env (w.opened env) state move →
        ¬ Sends env state move := by
  constructor
  · intro hcalm
    exact ⟨hcalm.delete, hcalm.move⟩
  · rintro ⟨hdelete, hmove⟩
    refine ⟨fun n hdue => ?_, fun _ => (rolled_eq_none hheld).mp (rolled_of_reachesEngines h),
      hdelete, hmove⟩
    exact absurd (h.nodes.alive.symm.trans hdue.deleting) Bool.false_ne_true

theorem ReachesScaling.unique {state' : ClusterState} (h : env.scrape (w.listed env) = some state)
    (h' : ReachesScaling env w state') : state' = state :=
  Option.some.inj (h'.scraped.symm.trans h)

theorem DeletionDue.not_moveDue {s : PassState} {n : ValkeyNode} {move : Move}
    (h : DeletionDue env s state n) : ¬ MoveDue env s state move := by
  unfold DeletionDue at h
  unfold MoveDue
  rcases h with h | h <;> simp [h]

theorem MoveDue.unique {s : PassState} {move move' : Move} (h : MoveDue env s state move)
    (h' : MoveDue env s state move') : move' = move := by
  unfold MoveDue at h h'
  rcases h with h | ⟨hnothing, h⟩
  · simpa [h, eq_comm] using h'
  · simpa [hnothing, h, eq_comm] using h'

theorem Scaled.frozen_iff {effect : Effect} (h : Scaled env (w.opened env) state effect) :
    effect.disturbs = false ↔
      (∀ n, DeletionDue env (w.opened env) state n → env.delete ≠ none) ∧
      ∀ move, MoveDue env (w.opened env) state move → ¬ Sends env state move := by
  cases h with
  | deleted hdue hmade =>
    constructor
    · intro hquiet
      cases hquiet
    · rintro ⟨hdelete, -⟩
      exact absurd hmade (hdelete _ hdue)
  | undeleted hdue hmade =>
    exact ⟨fun _ => ⟨fun _ _ => hmade, fun _ hmove => absurd hmove hdue.not_moveDue⟩, fun _ => rfl⟩
  | moved hdue hsends =>
    constructor
    · intro hquiet
      cases hquiet
    · rintro ⟨-, hmove⟩
      exact absurd hsends (hmove _ hdue)
  | waiting hdue hsends =>
    refine ⟨fun _ => ⟨fun _ hdelete => absurd hdue hdelete.not_moveDue, fun move hmove => ?_⟩,
      fun _ => rfl⟩
    rw [hdue.unique hmove]
    exact hsends

theorem ReachesEngines.calm (hreach : ReachesEngines env w) (hheld : LeaseHeld w.lease)
    (h : ∀ state, ¬ ReachesScaling env w state) : Calm env w :=
  (hreach.calm_iff hheld).mpr ⟨fun state hs => absurd hs (h state), fun state hs => absurd hs (h state)⟩

/-- However a pass under a held lease ends, it has left the topology alone exactly
if it was calm. -/
theorem Ended.frozen_iff {e : PassEnd} (hheld : LeaseHeld w.lease) (h : Ended env w e) :
    e.effect.disturbs = false ↔ Calm env w := by
  cases h with
  | halted hshort hnone h =>
    refine ⟨fun _ => ⟨hnone, fun hreach => absurd hreach hshort, fun _ hscaling => ?_,
      fun _ hscaling => ?_⟩, fun _ => by rw [h.effect]; rfl⟩
    · exact absurd hscaling.engines.nodes hshort
    · exact absurd hscaling.engines.nodes hshort
  | tornDown h =>
    rw [h.effect]
    constructor
    · intro hquiet
      cases hquiet
    · intro hcalm
      exact absurd h.due (hcalm.teardown _)
  | stepped hreach h =>
    have hleft : ¬ ReachesEngines env w := fun hengines =>
      h.left (stepDecision_eq_done.mpr ⟨hengines.converged, hengines.rolled⟩)
    rcases h.effect with ⟨t, htarget, heffect⟩ | ⟨htarget, heffect⟩
    · rw [heffect]
      constructor
      · intro hquiet
        cases hquiet
      · intro hcalm
        have hnone := (rolled_eq_none hheld).mpr (hcalm.roll hreach)
        exact absurd (htarget.symm.trans hnone) (by simp)
    · constructor
      · intro _
        refine ⟨fun n hdue => ?_, fun _ => (rolled_eq_none hheld).mp htarget, fun _ hscaling => ?_,
          fun _ hscaling => ?_⟩
        · exact absurd (hreach.alive.symm.trans hdue.deleting) Bool.false_ne_true
        · exact absurd hscaling.engines hleft
        · exact absurd hscaling.engines hleft
      · intro _
        rcases heffect with heffect | ⟨key, heffect⟩ <;> rw [heffect] <;> rfl
  | unscraped hreach h =>
    have hscaling : ∀ state, ¬ ReachesScaling env w state := fun state hscaling =>
      absurd (h.silent.symm.trans hscaling.scraped) (by simp)
    refine iff_of_true ?_ (hreach.calm hheld hscaling)
    rw [h.effect]
    rfl
  | @recovering state hreach hstate h =>
    have hscaling : ∀ state, ¬ ReachesScaling env w state := by
      intro state' hscaling
      cases hscaling.unique hstate
      exact h.effect.not_recovered _ _ _ hscaling.recovered
    refine iff_of_true ?_ (hreach.calm hheld hscaling)
    have heffect := h.effect
    generalize e.effect = effect at heffect ⊢
    cases heffect <;> rfl
  | joining hreach hstate h =>
    have hscaling : ∀ state, ¬ ReachesScaling env w state := fun _ hscaling =>
      h.effect.2 hscaling.joined
    refine iff_of_true ?_ (hreach.calm hheld hscaling)
    rw [h.effect.1]
    rfl
  | @scaling state hreach h =>
    rw [h.effect.frozen_iff, hreach.engines.calm_iff hheld]
    constructor
    · rintro ⟨hdelete, hmove⟩
      constructor
      · intro state' hscaling
        cases hscaling.unique hreach.scraped
        exact hdelete
      · intro state' hscaling
        cases hscaling.unique hreach.scraped
        exact hmove
    · rintro ⟨hdelete, hmove⟩
      exact ⟨hdelete state hreach, hmove state hreach⟩
  | @verified state hreach hscaled hbalanced heffect hseen hboard =>
    refine ⟨fun _ => (hreach.engines.calm_iff hheld).mpr ⟨fun state' hscaling n hdue => ?_,
      fun state' hscaling move hdue => ?_⟩, fun _ => by rw [heffect]; rfl⟩
    · cases hscaling.unique hreach.scraped
      rcases hdue with hdue | hdue <;> exact absurd (hscaled.symm.trans hdue) (by simp)
    · cases hscaling.unique hreach.scraped
      rcases hdue with hdue | ⟨-, hdue⟩
      · exact absurd (hscaled.symm.trans hdue) (by simp)
      · exact absurd (hbalanced.symm.trans hdue) (by simp)

/-- While a backup holds the lock, a pass leaves the topology alone if and only if
nothing is due that it does without asking: a node of the teardown, a config roll
(or an image roll with an unreadable lease), a node to scale in, a slot move. -/
theorem reconcile_frozen_iff (env : PassInputs) (w : ClusterWorld) :
    (LeaseHeld w.lease → (w.reconcile env).effect.disturbs = false) ↔
      (LeaseHeld w.lease → Calm env w) :=
  forall_congr' fun hheld => (reconcile_ended env w).frozen_iff hheld

/-- A backup holds the lock. -/
def heldLease : LeaseWorld where
  clock := 0
  lease := {
    object := some ({ holderIdentity := some "backup/default/b1", renewTime := some 0 }, 0)
    next := 1
    fresh := by
      intro x v h
      cases h
      exact Nat.one_pos }

/-- A cluster of two nodes: a shard with a replica. -/
def pairWorld (spec : ClusterSpec) (configHash : Str) (nodes : List ValkeyNode) : ClusterWorld where
  cluster := { pairCluster with spec := spec }
  crVersion := "1.0"
  configHash := configHash
  nodes := nodes
  lease := heldLease

def pairNodes : List ValkeyNode :=
  [pairNode 0 "h1" "valkey:8.1" "10.0.0.1", pairNode 1 "h1" "valkey:8.1" "10.0.0.2"]

def splitNode (shard : Int) (podIP : Str) : ValkeyNode :=
  { buildValkeyNodeSpec pairCluster ⟨shard, 0⟩ "h1" with
    status := { observedGeneration := 1, ready := true, podIP := podIP } }

/-- Under a held lease a pass rolls a node for a new configuration, deletes a
replica that is not wanted any more, and drains a shard. -/
theorem reconcile_disturbs_backup :
    LeaseHeld heldLease ∧
      ((pairWorld pairCluster.spec "h2" pairNodes).reconcile
        (quietInputs pairEngines)).effect.disturbs = true ∧
      ((pairWorld { pairCluster.spec with replicas := 0 } "h1" pairNodes).reconcile
        (quietInputs pairEngines)).effect.disturbs = true ∧
      ((pairWorld { pairCluster.spec with replicas := 0 } "h1"
        [splitNode 0 "10.0.0.1", splitNode 1 "10.0.0.2"]).reconcile
        (quietInputs splitEngines)).effect.disturbs = true := by
  refine ⟨⟨_, rfl, rfl⟩, ?_⟩
  decide

end ValkeyOperator.Cluster

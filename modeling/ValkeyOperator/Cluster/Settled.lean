import ValkeyOperator.Cluster.Pipeline
import ValkeyOperator.Lib.Runs

/-! What a Ready cluster says about the pass that has led to it.

A backup takes the state Ready for a settled topology. Only a pass that finds
nothing left to do makes a cluster Ready, but the passes that forget, delete, drain
or rebalance leave a Ready one as it is. -/

namespace ValkeyOperator.Cluster
open Text Valkey Api
open Backup (LeaseWorld clusterSnapshotReady)

variable {b : Board} {noted : Board × Option Err} {state : ClusterState} {w : ClusterWorld}
  {o : ObjectMeta} {fault : Option Fault} {e : PassEnd} {env : PassInputs}
  {cluster : PerconaValkeyCluster} {message reason : Str}

/-! ## What a pass is busy with -/

/-- The move that drains the first of the removed shards. -/
def plannedDrain (S : Sorter NodeState) (cluster : PerconaValkeyCluster) (state : ClusterState)
    (nodes : List ValkeyNode) : Option Move :=
  match drainingShardPrimaries S state (positionsByIP nodes) cluster.spec.shards.toInt with
  | [] => none
  | src :: _ =>
    planDrainMove S src (remainingPrimaries state (positionsByIP nodes) cluster.spec.shards.toInt)
      batchSize

theorem plannedDrain_of_nothing {S : Sorter ValkeyNode} {S' : Sorter NodeState}
    {nodes : List ValkeyNode} (h : handleScaleIn S S' cluster state nodes = .nothing) :
    plannedDrain S' cluster state nodes = none := by
  unfold handleScaleIn at h
  unfold plannedDrain
  split at h
  · cases h
  split at h
  · rename_i src rest hdraining
    rw [hdraining]
    unfold drainShard at h
    split at h
    · assumption
    · cases h
  · rename_i hdraining
    rw [hdraining]

/-- The effect drains, rebalances, forgets or deletes. -/
def Effect.restructures : Effect → Bool
  | .forget | .delete _ | .migrate _ => true
  | _ => false

/-- What is remembered of a pass: the generation of the spec it worked on, whether it
restructured the cluster, and whether a move is planned for the state it saw. -/
structure PassRecord where
  generation : Int
  restructured : Bool
  planned : Bool

def PassRecord.settled (r : PassRecord) : Prop := r.restructured = false ∧ r.planned = false

def movesPlanned (env : PassInputs) (w : ClusterWorld) (state : ClusterState) : Bool :=
  (plannedDrain env.stateSorter (w.wanted env) state (w.listed env)).isSome ||
    (planRebalanceMove env.stateSorter state (w.wanted env).spec.shards.toInt).isSome

def passRecord (env : PassInputs) (w : ClusterWorld) : PassRecord where
  generation := (w.step (.pass env)).generation
  restructured := (w.reconcile env).effect.restructures
  planned := ((w.reconcile env).seen.map (movesPlanned env w)).getD false

/-- The world with the record of the latest pass. -/
structure TrackedWorld where
  world : ClusterWorld
  last : Option PassRecord := none

def TrackedWorld.step (t : TrackedWorld) (event : ClusterEvent) : TrackedWorld where
  world := t.world.step event
  last :=
    match event with
    | .pass env => some (passRecord env t.world)
    | _ => t.last

/-- The cluster as a backup reads it is fit for a snapshot. -/
def ClusterWorld.SnapshotReady (w : ClusterWorld) : Prop :=
  clusterSnapshotReady w.cluster.name (.ok (some { w.cluster with status := w.status.published })) =
    .ok none

/-- The latest pass on the current spec has left the topology settled. -/
def TrackedWorld.Settled (t : TrackedWorld) : Prop :=
  ∀ r, t.last = some r → r.generation = t.world.generation → r.settled

theorem snapshotReady_iff : w.SnapshotReady ↔ w.status.state = some .ready := by
  unfold ClusterWorld.SnapshotReady clusterSnapshotReady Status.published
  rcases w.status.state with _ | _ | _ | _ | _ | _ <;> simp

/-! ## Passes that leave Ready as it is -/

/-- No work is due that a pass does while Ready stays as it is. -/
structure Workless (env : PassInputs) (w : ClusterWorld) : Prop where
  teardown : ∀ n, ¬ TeardownDue env w n
  forget : ∀ state, env.scrape (w.listed env) = some state →
    ∀ id ∈ state.staleNodeIDs (backingNodeIDs state (w.listed env)),
      recoverable (w.wanted env) state id = true
  scaleIn : ∀ state, env.scrape (w.listed env) = some state →
    handleScaleIn env.nodeSorter env.stateSorter (w.wanted env) state (w.listed env) = .nothing
  rebalance : ∀ state, env.scrape (w.listed env) = some state →
    planRebalanceMove env.stateSorter state (w.wanted env).spec.shards.toInt = none

theorem forgetEach_of_recoverable {ids : List Str}
    (h : ∀ id ∈ ids, recoverable cluster state id = true) (acted : Bool) :
    forgetEach cluster state ids acted = pure acted := by
  induction ids with
  | nil => rfl
  | cons id rest ih =>
    unfold forgetEach
    rw [if_pos (h id (by simp))]
    exact ih fun id' hid' => h id' (by simp [hid'])

theorem forgetStaleNodes_of_recoverable {nodes : List ValkeyNode}
    (h : ∀ id ∈ state.staleNodeIDs (backingNodeIDs state nodes),
      recoverable cluster state id = true) : forgetStaleNodes cluster state nodes = pure false := by
  unfold forgetStaleNodes
  dsimp only
  split
  · rfl
  · exact forgetEach_of_recoverable h false

theorem Workless.not_planned (h : Workless env w)
    (hstate : env.scrape (w.listed env) = some state) : movesPlanned env w state = false := by
  unfold movesPlanned
  rw [plannedDrain_of_nothing (h.scaleIn state hstate), h.rebalance state hstate]
  rfl

theorem Ended.seen_scraped (h : Ended env w e) (hseen : e.seen = some state) :
    env.scrape (w.listed env) = some state := by
  cases h with
  | halted hshort hnone h => exact absurd (h.seen.symm.trans hseen) (by simp)
  | tornDown h => exact absurd (h.seen.symm.trans hseen) (by simp)
  | stepped hreach h =>
    rcases h.seen with hnone | hscraped
    · exact absurd (hnone.symm.trans hseen) (by simp)
    · exact hscraped.symm.trans hseen
  | unscraped hreach h => exact absurd (h.seen.symm.trans hseen) (by simp)
  | recovering hreach hstate h => exact hstate.trans (h.seen.symm.trans hseen)
  | joining hreach hstate h => exact hstate.trans (h.seen.symm.trans hseen)
  | scaling hreach h => exact hreach.scraped.trans (h.seen.symm.trans hseen)
  | verified hreach hscaled hbalanced heffect hseen' hboard =>
    exact hreach.scraped.trans (hseen'.symm.trans hseen)

/-- Without such work a pass does not restructure the cluster. -/
theorem Ended.not_restructures (h : Ended env w e) (hidle : Workless env w) :
    e.effect.restructures = false := by
  cases h with
  | halted hshort hnone h => rw [h.effect]; rfl
  | tornDown h => exact absurd h.due (hidle.teardown _)
  | stepped hreach h =>
    rcases h.effect with ⟨t, -, heffect⟩ | ⟨-, heffect | ⟨key, heffect⟩⟩ <;> rw [heffect] <;> rfl
  | unscraped hreach h => rw [h.effect]; rfl
  | recovering hreach hstate h =>
    have heffect := h.effect
    generalize e.effect = effect at heffect ⊢
    cases heffect with
    | takingOver hdue => rfl
    | forgetting hdue =>
      refine absurd ?_ hdue
      change (forgetStaleNodes (w.wanted env) _ (w.listed env)).outcome _ = _
      rw [forgetStaleNodes_of_recoverable (hidle.forget _ hstate)]
      rfl
  | joining hreach hstate h => rw [h.effect.1]; rfl
  | scaling hreach h =>
    have hnothing := hidle.scaleIn _ hreach.scraped
    have hbalanced := hidle.rebalance _ hreach.scraped
    have heffect := h.effect
    generalize e.effect = effect at heffect ⊢
    cases heffect with
    | deleted hdue hmade =>
      rcases hdue with hdue | hdue <;> exact absurd (hnothing.symm.trans hdue) (by simp)
    | undeleted hdue hmade => rfl
    | moved hdue hsends =>
      rcases hdue with hdue | ⟨-, hdue⟩
      · exact absurd (hnothing.symm.trans hdue) (by simp)
      · exact absurd (hbalanced.symm.trans hdue) (by simp)
    | waiting hdue hsends => rfl
  | verified hreach hscaled hbalanced heffect hseen hboard => rw [heffect]; rfl

theorem passRecord_settled (h : Workless env w) : (passRecord env w).settled := by
  refine ⟨(reconcile_ended env w).not_restructures h, ?_⟩
  unfold passRecord
  cases hseen : (w.reconcile env).seen with
  | none => rfl
  | some state => exact h.not_planned ((reconcile_ended env w).seen_scraped hseen)

/-! ## Ready comes back through verification only -/

abbrev Board.Unserving (b : Board) : Prop := b.Both fun s => s.serving = false

namespace Board.Unserving

variable {b : Board} {o : ObjectMeta}

theorem writeStatus (h : b.Unserving) : (b.writeStatus o fault).1.Unserving :=
  Both.writeStatus (by simp) h fault

theorem unready (h : b.stored.serving = false) : (b.set o .ready false reason message).Unserving :=
  ⟨h, by simp [Board.set, Status.serving]⟩

theorem degraded (h : b.stored.serving = false) :
    (b.set o .degraded true reason message).Unserving :=
  ⟨h, by simp [Board.set, Status.serving]⟩

theorem progressing {status : Bool} (h : b.Unserving) :
    (b.set o .progressing status reason message).Unserving :=
  ⟨h.stored, by simpa [Board.set, Status.serving] using h.mem⟩

theorem fail {e : Err} (h : b.stored.serving = false) : (b.fail o fault reason e).Unserving :=
  writeStatus (unready h)

end Board.Unserving

theorem Recorded.unserving {b' : Board} {cause : Prop} (h : Recorded env o b cause b')
    (hb : b.Unserving) : b'.Unserving := by
  cases h with
  | untouched => exact hb
  | failed reason e => exact .fail hb.stored
  | degraded reason e h => exact .writeStatus (.unready hb.stored)
  | progressed reason message => exact .writeStatus hb.progressing

theorem RollReport.note_unserving (hb : b.Unserving) (report : RollReport) :
    (report.note env o b).1.stored.serving = false := by
  cases report with
  | gated => exact hb.stored
  | midRoll => exact hb.stored
  | held reason => exact hb.progressing.writeStatus.stored
  | refused message =>
    exact (Board.Unserving.degraded hb.stored).progressing.writeStatus.stored
  | noCandidate => exact hb.stored
  | failoverFailed e => exact hb.stored
  | failoverPending => exact (Board.Unserving.degraded hb.stored).writeStatus.stored
  | stamps target failedOver => cases failedOver <;> exact hb.stored

theorem Noted.unserving {lease : LeaseWorld} {configHash : Str} {s : PassState}
    (h : Noted env o lease configHash s noted) (hs : s.board.Unserving) :
    noted.1.stored.serving = false := by
  cases h with
  | waiting => exact hs.stored
  | creating => exact hs.stored
  | rolling => exact RollReport.note_unserving hs _

theorem steppingBoard_unserving (h : noted.1.stored.serving = false) :
    (steppingBoard env o noted).Unserving := by
  unfold steppingBoard
  split
  · exact .fail h
  · exact .writeStatus (.unready h)

/-- Only a pass that finds nothing left to do makes a cluster Ready. -/
theorem Ended.settled_of_serving (h : Ended env w e) (hw : w.status.serving = false)
    (hserving : e.pass.board.stored.serving = true) :
    e.effect.restructures = false ∧
      ∀ state, e.seen = some state → movesPlanned env w state = false := by
  have hstart : w.start.board.Unserving := ⟨hw, hw⟩
  have hnot : ¬ e.pass.board.stored.serving = false := by simp [hserving]
  cases h with
  | halted hshort hnone h => exact absurd (h.board.unserving hstart).stored hnot
  | tornDown h => exact absurd (h.board ▸ hw) hnot
  | stepped hreach h =>
    obtain ⟨noted, hnoted, hboard⟩ := h.board
    exact absurd (hboard ▸ (steppingBoard_unserving (hnoted.unserving hstart)).stored) hnot
  | unscraped hreach h =>
    obtain ⟨b, hboard, hstored, hready, -⟩ := h.board
    have hb : b.Unserving := ⟨hstored ▸ hw, by simp [Status.serving, hready]⟩
    exact absurd (hboard ▸ hb.writeStatus.stored) hnot
  | recovering hreach hstate h => exact absurd (h.board.unserving hstart).stored hnot
  | joining hreach hstate h => exact absurd (h.board.unserving hstart).stored hnot
  | scaling hreach h => exact absurd (h.board.unserving hstart).stored hnot
  | verified hreach hscaled hbalanced heffect hseen hboard =>
    refine ⟨by rw [heffect]; rfl, fun state hstate => ?_⟩
    rw [hseen, Option.some.injEq] at hstate
    subst hstate
    unfold movesPlanned
    rw [plannedDrain_of_nothing hscaled, hbalanced]
    rfl

/-- The state Ready is what the conditions say. -/
def Status.Projected (s : Status) : Prop := s.state = some .ready → s.serving = true

theorem Board.writeStatus_projected (h : b.stored.Projected) :
    (b.writeStatus o fault).1.stored.Projected := by
  rcases b.writeStatus_stored o fault with hstored | hstored <;> rw [hstored]
  · exact h
  · intro hready
    rw [Status.state_applyDerivedState, Option.some.injEq] at hready
    rw [Status.serving_applyDerivedState]
    exact Status.serving_of_deriveState hready

theorem Recorded.projected {b' : Board} {cause : Prop} (h : Recorded env o b cause b')
    (hb : b.stored.Projected) : b'.stored.Projected := by
  cases h with
  | untouched => exact hb
  | _ => exact Board.writeStatus_projected hb

theorem Noted.projected {lease : LeaseWorld} {configHash : Str} {s : PassState}
    (h : Noted env o lease configHash s noted) (hs : s.board.stored.Projected) :
    noted.1.stored.Projected := by
  cases h with
  | waiting => exact hs
  | creating => exact hs
  | rolling =>
    generalize rollReport _ _ _ _ _ _ = report
    cases report with
    | held reason => exact Board.writeStatus_projected hs
    | refused message => exact Board.writeStatus_projected hs
    | failoverPending => exact Board.writeStatus_projected hs
    | stamps target failedOver => cases failedOver <;> exact hs
    | _ => exact hs

theorem steppingBoard_projected (h : noted.1.stored.Projected) :
    (steppingBoard env o noted).stored.Projected := by
  unfold steppingBoard
  split <;> exact Board.writeStatus_projected h

theorem recordShards_stored (o : ObjectMeta) (cluster : PerconaValkeyCluster)
    (state : ClusterState) (b : Board) : (recordShards o cluster state b).stored = b.stored := by
  unfold recordShards
  dsimp only
  split <;> rfl

theorem verifyAndMarkReady_projected {crVersion : Str} (h : b.stored.Projected) :
    (verifyAndMarkReady o fault crVersion cluster state b).stored.Projected := by
  rw [← recordShards_stored o cluster state] at h
  unfold verifyAndMarkReady
  dsimp only
  generalize recordShards o cluster state b = recorded at h ⊢
  split <;> exact Board.writeStatus_projected h

theorem Ended.projected (h : Ended env w e) (hw : w.status.Projected) :
    e.pass.board.stored.Projected := by
  cases h with
  | halted hshort hnone h => exact h.board.projected hw
  | tornDown h => rw [h.board]; exact hw
  | stepped hreach h =>
    obtain ⟨noted, hnoted, hboard⟩ := h.board
    rw [hboard]
    exact steppingBoard_projected (hnoted.projected hw)
  | unscraped hreach h =>
    obtain ⟨b, hboard, hstored, -, -⟩ := h.board
    rw [hboard]
    exact Board.writeStatus_projected (hstored ▸ hw)
  | recovering hreach hstate h => exact h.board.projected hw
  | joining hreach hstate h => exact h.board.projected hw
  | scaling hreach h => exact h.board.projected hw
  | verified hreach hscaled hbalanced heffect hseen hboard =>
    rw [hboard]
    exact verifyAndMarkReady_projected hw

/-! ## Ready along a run -/

/-- What holds of the status and the record of the latest pass. -/
structure TrackedWorld.Consistent (t : TrackedWorld) : Prop where
  projected : t.world.status.Projected
  settled : t.world.status.serving = true → t.Settled
  past : ∀ r, t.last = some r → r.generation ≤ t.world.generation

/-- A pass over a Ready cluster meets no work that leaves it Ready. -/
def ReadyWorkless (t : TrackedWorld) (event : ClusterEvent) : Prop :=
  ∀ env, event = .pass env → t.world.status.serving = true → Workless env t.world

theorem TrackedWorld.Consistent.pass {t : TrackedWorld} (h : t.Consistent)
    (hidle : t.world.status.serving = true → Workless env t.world) :
    (t.step (.pass env)).Consistent := by
  have hended := reconcile_ended env t.world
  refine ⟨hended.projected h.projected, fun hserving r hlast _ => ?_, fun r hlast => ?_⟩
  · cases hlast
    cases hbefore : t.world.status.serving with
    | true => exact passRecord_settled (hidle hbefore)
    | false =>
      obtain ⟨hquiet, hplanned⟩ := hended.settled_of_serving hbefore hserving
      refine ⟨hquiet, ?_⟩
      unfold passRecord
      cases hseen : (t.world.reconcile env).seen with
      | none => rfl
      | some state => exact hplanned state hseen
  · cases hlast
    exact le_refl _

theorem TrackedWorld.Consistent.step {t : TrackedWorld} {event : ClusterEvent}
    (hidle : ReadyWorkless t event) (h : t.Consistent) : (t.step event).Consistent := by
  -- a record made before an edit of the spec is not one of the current spec
  have houtdated : ∀ r, t.last = some r → r.generation ≠ t.world.generation + 1 := by
    intro r hlast
    have := h.past r hlast
    omega
  have hlater : ∀ r, t.last = some r → r.generation ≤ t.world.generation + 1 := by
    intro r hlast
    have := h.past r hlast
    omega
  cases event with
  | pass env => exact h.pass (hidle env rfl)
  | edit spec crVersion configHash =>
    exact ⟨h.projected, fun _ r hlast hcurrent => absurd hcurrent (houtdated r hlast), hlater⟩
  | markDeleted =>
    exact ⟨h.projected, fun _ r hlast hcurrent => absurd hcurrent (houtdated r hlast), hlater⟩
  | _ => exact ⟨h.projected, h.settled, h.past⟩

/-- In every run from a new cluster in which no pass over a Ready cluster meets
work that leaves it Ready, a cluster that is fit for a snapshot is settled: its
latest pass on the current spec neither restructured it nor left a move planned. -/
theorem settled_of_snapshotReady (start : ClusterWorld) (hnew : start.status = {})
    {t : TrackedWorld} (hrun : Runs TrackedWorld.step ReadyWorkless { world := start } t)
    (hready : t.world.SnapshotReady) : t.Settled := by
  have hstart : TrackedWorld.Consistent { world := start } := by
    refine ⟨?_, fun _ r hlast => (nomatch hlast), fun r hlast => (nomatch hlast)⟩
    intro hstate
    rw [hnew] at hstate
    cases hstate
  have hconsistent := hrun.preserves (fun _ _ hidle h => h.step hidle) hstart
  exact hconsistent.settled (hconsistent.projected (snapshotReady_iff.mp hready))

/-- A pair until it is Ready: no pass before is one over a Ready cluster. -/
def formedPair : TrackedWorld :=
  (formation pairEngines).foldl TrackedWorld.step { world := freshWorld pairCluster.spec }

theorem settled_formedPair : formedPair.world.SnapshotReady ∧ formedPair.Settled := by
  have hready : formedPair.world.SnapshotReady := snapshotReady_iff.mpr (by decide)
  refine ⟨hready, settled_of_snapshotReady (freshWorld pairCluster.spec) rfl ?_ hready⟩
  have hreport : ∀ t, ReadyWorkless t (.report readyStatus) := fun t env h => (nomatch h)
  have hpass : ∀ t : TrackedWorld, t.world.status.serving = false →
      ReadyWorkless t (.pass (quietInputs pairEngines)) := by
    intro t hnot env _ hserving
    exact absurd (hnot.symm.trans hserving) Bool.false_ne_true
  exact (((((Runs.extend .refl (hpass _ (by decide))).extend (hreport _)).extend
    (hpass _ (by decide))).extend (hreport _)).extend (hpass _ (by decide)))

/-- Two shards are formed, then one is asked for, and a pass drains the other. -/
def drainingPair : TrackedWorld :=
  (formation splitEngines ++
    [ClusterEvent.edit { pairCluster.spec with replicas := 0 } "1.0" "h1",
      .pass (quietInputs splitEngines)]).foldl TrackedWorld.step
    { world := freshWorld { pairCluster.spec with shards := 2, replicas := 0 } }

/-- The cluster is fit for a snapshot in the middle of a drain. -/
theorem drainingPair_snapshotReady :
    Runs TrackedWorld.step (fun _ _ => True)
      { world := freshWorld { pairCluster.spec with shards := 2, replicas := 0 } } drainingPair ∧
    drainingPair.world.SnapshotReady ∧
    ∃ r, drainingPair.last = some r ∧ r.generation = drainingPair.world.generation ∧
      r.restructured = true ∧ r.planned = true :=
  ⟨Runs.of_events (fun _ _ => trivial) _ _, snapshotReady_iff.mpr (by decide), _, rfl, by decide,
    by decide, by decide⟩

end ValkeyOperator.Cluster

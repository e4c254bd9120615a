import ValkeyOperator.Cluster.Pipeline
import ValkeyOperator.Cluster.Runs

/-! What a pass of the cluster controller does to the stored objects.

Of the cluster it changes at most the image, of the nodes at most the announced
addresses and the one write of the node stepping, and the verdict on the slots only
once every desired node has converged. -/

namespace ValkeyOperator.Cluster
open Text Valkey Api
open Backup (LeaseWorld)

/-! ## Cluster and nodes -/

/-- What the copies of a pass can have become. -/
structure Upkeep (env : PassInputs) (w : ClusterWorld) (s : PassState) : Prop where
  cluster : s.cluster = w.cluster ∨ s.cluster = w.wanted env
  nodes : s.nodes = w.nodes ∨ s.nodes = w.listed env ∨
    Written (w.wanted env) w.configHash (w.listed env) s.nodes

/-- The same cluster and the same nodes. -/
def Same (s s' : PassState) : Prop := s'.cluster = s.cluster ∧ s'.nodes = s.nodes

/-- The phase leaves cluster and nodes as they are, whether it ends the pass or not. -/
def Leaves (s : PassState) (x : Staged PassEnd PassState) : Prop :=
  x.Ensures (fun e => Same s e.pass) (Same s)

section Phases

variable {env : PassInputs} {o : ObjectMeta} {s : PassState}

theorem gateStage_leaves (crVersion : Str) : Leaves s (gateStage env o crVersion s) := by
  unfold gateStage
  split
  · exact ⟨rfl, rfl⟩
  · split <;> exact ⟨rfl, rfl⟩

theorem finalizerStage_leaves : Leaves s (finalizerStage env o s) := by
  unfold finalizerStage
  split <;> exact ⟨rfl, rfl⟩

theorem phaseStage_leaves (phase : InfraPhase) : Leaves s (phaseStage env o phase s) := by
  unfold phaseStage
  split <;> exact ⟨rfl, rfl⟩

theorem tlsStage_leaves : Leaves s (tlsStage env o s) := by
  unfold tlsStage
  split <;> exact ⟨rfl, rfl⟩

theorem delete_same (n : ValkeyNode) : Same s (s.delete env n) := by
  unfold PassState.delete
  split <;> exact ⟨rfl, rfl⟩

theorem handleDeletion_same : Same s (handleDeletion env o s).pass := by
  unfold handleDeletion
  split
  · exact ⟨rfl, rfl⟩
  split
  · exact ⟨rfl, rfl⟩
  split
  · split
    · exact ⟨rfl, rfl⟩
    · exact delete_same _
  · split <;> exact ⟨rfl, rfl⟩

theorem scrapeStage_leaves : (scrapeStage env o s).Ensures (fun e => Same s e.pass)
    fun _ => True := by
  unfold scrapeStage
  split
  · trivial
  · exact ⟨rfl, rfl⟩

theorem recoverStage_leaves (state : ClusterState) : Leaves s (recoverStage env o state s) := by
  unfold recoverStage
  split
  · exact ⟨rfl, rfl⟩
  · exact ⟨rfl, rfl⟩
  · split <;> exact ⟨rfl, rfl⟩

theorem joinStage_leaves (state : ClusterState) : Leaves s (joinStage env o state s) := by
  unfold joinStage
  split <;> exact ⟨rfl, rfl⟩

theorem deleteEnd_same (state : ClusterState) (n : ValkeyNode) (context : Str) :
    Same s (deleteEnd env o state n context s).pass := by
  unfold deleteEnd
  dsimp only
  split
  · exact ⟨rfl, rfl⟩
  · exact delete_same n

theorem moveEnd_same (state : ClusterState) (move : Move) {onProgress : PassState → PassState}
    (h : Same s (onProgress s)) (reason context : Str) :
    Same s (moveEnd env o state move onProgress reason context s).pass := by
  unfold moveEnd
  dsimp only
  split
  · exact ⟨rfl, rfl⟩
  · exact h

theorem scaleStage_leaves (state : ClusterState) : Leaves s (scaleStage env o state s) := by
  unfold scaleStage
  split
  · exact deleteEnd_same state _ _
  · exact deleteEnd_same state _ _
  · exact moveEnd_same state _ ⟨rfl, rfl⟩ _ _
  · split
    · exact ⟨rfl, rfl⟩
    · exact moveEnd_same state _ ⟨rfl, rfl⟩ _ _

end Phases

section Pass

variable {env : PassInputs} {w : ClusterWorld} {s : PassState}

/-- The copies of a pass are these. -/
def At (cluster : PerconaValkeyCluster) (nodes : List ValkeyNode) (s : PassState) : Prop :=
  s.cluster = cluster ∧ s.nodes = nodes

theorem Leaves.ensures {cluster : PerconaValkeyCluster} {nodes : List ValkeyNode}
    {x : Staged PassEnd PassState} (hx : Leaves s x) (hs : At cluster nodes s)
    (hupkeep : ∀ s', At cluster nodes s' → Upkeep env w s') :
    x.Ensures (fun e => Upkeep env w e.pass) (At cluster nodes) :=
  hx.mono (fun _ h => hupkeep _ ⟨h.1.trans hs.1, h.2.trans hs.2⟩)
    fun _ h => ⟨h.1.trans hs.1, h.2.trans hs.2⟩

theorem upkeep_start (h : At w.cluster w.nodes s) : Upkeep env w s := ⟨.inl h.1, .inl h.2⟩

theorem upkeep_wanted (h : At (w.wanted env) w.nodes s) : Upkeep env w s := ⟨.inr h.1, .inl h.2⟩

theorem upkeep_listed (h : At (w.wanted env) (w.listed env) s) : Upkeep env w s :=
  ⟨.inr h.1, .inr (.inl h.2)⟩

theorem versionCheckStage_upkeep {o : ObjectMeta} (hs : At w.cluster w.nodes s) :
    (versionCheckStage env o s).Ensures (fun e => Upkeep env w e.pass)
      (At (w.wanted env) w.nodes) := by
  unfold versionCheckStage
  split
  · exact upkeep_start hs
  · rename_i hcheck
    refine ⟨?_, hs.2⟩
    rw [ClusterWorld.wanted, hcheck]
    exact hs.1
  · rename_i image hcheck
    refine ⟨?_, hs.2⟩
    rw [ClusterWorld.wanted, hcheck]
    dsimp only
    rw [hs.1]

theorem announceStage_upkeep {o : ObjectMeta} (hs : At (w.wanted env) w.nodes s) :
    (announceStage env o s).Ensures (fun e => Upkeep env w e.pass)
      (At (w.wanted env) (w.listed env)) := by
  have hlisted : (reconcileExposeAnnounce env.announce s.cluster s.nodes).1 = w.listed env := by
    rw [hs.1, hs.2]
    rfl
  unfold announceStage
  split
  · rename_i nodes e heq
    rw [heq] at hlisted
    exact upkeep_listed ⟨hs.1, hlisted⟩
  · rename_i nodes heq
    rw [heq] at hlisted
    exact ⟨hs.1, hlisted⟩

theorem infraStage_upkeep {o : ObjectMeta} (hs : At (w.wanted env) w.nodes s) :
    (infraStage env o s).Ensures (fun e => Upkeep env w e.pass)
      (At (w.wanted env) (w.listed env)) := by
  unfold infraStage
  refine ((phaseStage_leaves _).ensures hs fun _ => upkeep_wanted).bind fun s hs => ?_
  refine ((phaseStage_leaves _).ensures hs fun _ => upkeep_wanted).bind fun s hs => ?_
  refine (announceStage_upkeep hs).bind fun s hs => ?_
  refine ((phaseStage_leaves _).ensures hs fun _ => upkeep_listed).bind fun s hs => ?_
  refine ((phaseStage_leaves _).ensures hs fun _ => upkeep_listed).bind fun s hs => ?_
  refine ((phaseStage_leaves _).ensures hs fun _ => upkeep_listed).bind fun s hs => ?_
  refine (tlsStage_leaves.ensures hs fun _ => upkeep_listed).bind fun s hs => ?_
  refine ((phaseStage_leaves _).ensures hs fun _ => upkeep_listed).bind fun s hs => ?_
  exact (phaseStage_leaves _).ensures hs fun _ => upkeep_listed

theorem opening_upkeep : (w.opening env).Ensures (fun e => Upkeep env w e.pass)
    (At (w.wanted env) (w.listed env)) := by
  have hstart : At w.cluster w.nodes w.start := ⟨rfl, rfl⟩
  unfold ClusterWorld.opening
  refine ((gateStage_leaves _).ensures hstart fun _ => upkeep_start).bind fun s hs => ?_
  split
  · exact upkeep_start ⟨handleDeletion_same.1.trans hs.1, handleDeletion_same.2.trans hs.2⟩
  · refine (finalizerStage_leaves.ensures hs fun _ => upkeep_start).bind fun s hs => ?_
    refine (versionCheckStage_upkeep hs).bind fun s hs => ?_
    exact infraStage_upkeep hs

theorem nodeStage_upkeep {o : ObjectMeta} (lease : LeaseWorld)
    (hs : At (w.wanted env) (w.listed env) s) :
    (nodeStage env o lease w.configHash s).Ensures (fun e => Upkeep env w e.pass)
      (At (w.wanted env) (w.listed env)) := by
  have hwritten := reconcileValkeyNodes_written env.nodeSorter
    (s.stepEnv env lease w.configHash) s.cluster s.nodes w.configHash
  have hstepped : ∀ board : Board, Upkeep env w { s with
      nodes := (reconcileValkeyNodes env.nodeSorter (s.stepEnv env lease w.configHash) s.cluster
        s.nodes w.configHash).after s.nodes, board := board } := by
    refine fun board => ⟨.inr hs.1, .inr (.inr ?_)⟩
    rw [hs.1, hs.2] at hwritten
    rw [hs.1, hs.2]
    exact hwritten
  unfold nodeStage
  dsimp only
  split
  · exact hs
  · exact upkeep_listed hs
  · exact hstepped _
  · exact hstepped _

theorem nodesOnward_upkeep {o : ObjectMeta} (lease : LeaseWorld) (crVersion : Str)
    (hs : At (w.wanted env) (w.listed env) s) :
    (nodesOnward env o lease w.configHash crVersion s).Ensures (fun e => Upkeep env w e.pass)
      fun e => Upkeep env w e.pass := by
  unfold nodesOnward
  refine (nodeStage_upkeep lease hs).bind fun s hs => ?_
  refine (scrapeStage_leaves.mono (fun _ h => upkeep_listed ⟨h.1.trans hs.1, h.2.trans hs.2⟩)
    fun _ h => h).bind fun state _ => ?_
  refine ((recoverStage_leaves state).ensures hs fun _ => upkeep_listed).bind fun s hs => ?_
  refine ((joinStage_leaves state).ensures hs fun _ => upkeep_listed).bind fun s hs => ?_
  refine ((scaleStage_leaves state).ensures hs fun _ => upkeep_listed).bind fun s hs => ?_
  exact upkeep_listed hs

variable (env w)

theorem reconcile_upkeep : Upkeep env w (w.reconcile env).pass :=
  Staged.Ensures.result (opening_upkeep.bind fun _ hs => nodesOnward_upkeep w.lease (w.contract env) hs)

end Pass

/-! ## The verdict on the slots -/

/-- Both copies of the status say this of the slots. -/
def Board.Shows (covered : Bool) (b : Board) : Prop :=
  b.Both fun s => s.conditionTrue .slotsAssigned = covered

namespace Board.Shows

variable {o : ObjectMeta} {b : Board} {covered : Bool}

theorem set (h : b.Shows covered) {type : CondType} (htype : type ≠ .slotsAssigned) (status : Bool)
    (reason message : Str) : (b.set o type status reason message).Shows covered := by
  refine ⟨h.stored, ?_⟩
  have hmem := h.mem
  simp only [Board.set, Status.conditionTrue_setCondition, if_neg htype.symm]
  exact hmem

theorem writeStatus (h : b.Shows covered) (fault : Option Fault) :
    (b.writeStatus o fault).1.Shows covered :=
  Board.Both.writeStatus (fun s hs => by rw [Status.conditionTrue_applyDerivedState, hs]) h fault

theorem fail (h : b.Shows covered) (fault : Option Fault) (reason : Str) (e : Err) :
    (b.fail o fault reason e).Shows covered :=
  (h.set (by decide) _ _ _).writeStatus fault

end Board.Shows

variable {env : PassInputs} {o : ObjectMeta} {b b' : Board} {covered : Bool}

theorem Recorded.shows {cause : Prop} (h : Recorded env o b cause b') (hb : b.Shows covered) :
    b'.Shows covered := by
  cases h with
  | untouched => exact hb
  | failed reason e => exact hb.fail _ reason e
  | degraded reason e _ =>
    exact ((hb.set (by decide) _ _ _).set (by decide) _ _ _).writeStatus _
  | progressed reason message => exact (hb.set (by decide) _ _ _).writeStatus _

theorem RollReport.note_shows (report : RollReport) (hb : b.Shows covered) :
    (report.note env o b).1.Shows covered := by
  unfold RollReport.note
  split
  · exact hb.set (by decide) _ _ _
  · exact hb
  · exact hb
  · exact (hb.set (by decide) _ _ _).writeStatus _
  · exact ((hb.set (by decide) _ _ _).set (by decide) _ _ _).writeStatus _
  · exact hb
  · exact (hb.set (by decide) _ _ _).writeStatus _
  · dsimp only
    split
    · exact hb.set (by decide) _ _ _
    · exact hb

theorem Noted.shows {lease : LeaseWorld} {configHash : Str} {s : PassState}
    {noted : Board × Option Err} (h : Noted env o lease configHash s noted)
    (hs : s.board.Shows covered) : noted.1.Shows covered := by
  cases h with
  | waiting => exact hs
  | creating => exact hs
  | rolling => exact RollReport.note_shows _ hs

theorem steppingBoard_shows {noted : Board × Option Err} (h : noted.1.Shows covered) :
    (steppingBoard env o noted).Shows covered := by
  unfold steppingBoard
  split
  · exact h.fail _ _ _
  · exact ((h.set (by decide) _ _ _).set (by decide) _ _ _).writeStatus _

/-- The verdict on the slots changes only in a pass that finds every node converged. -/
theorem Ended.slotsAssigned {w : ClusterWorld} {e : PassEnd} (h : Ended env w e) :
    e.pass.board.stored.conditionTrue .slotsAssigned = w.status.conditionTrue .slotsAssigned ∨
      ReachesEngines env w := by
  have hstart : w.start.board.Shows (w.status.conditionTrue .slotsAssigned) := ⟨rfl, rfl⟩
  cases h with
  | halted _ _ h => exact .inl (h.board.shows hstart).stored
  | tornDown h =>
    rw [h.board]
    exact .inl rfl
  | stepped _ h =>
    obtain ⟨noted, hnoted, hboard⟩ := h.board
    rw [hboard]
    exact .inl (steppingBoard_shows (hnoted.shows hstart)).stored
  | unscraped hreach _ => exact .inr hreach
  | recovering hreach _ _ => exact .inr hreach
  | joining hreach _ _ => exact .inr hreach
  | scaling hreach _ => exact .inr hreach.engines
  | verified hreach _ _ _ _ _ => exact .inr hreach.engines

end ValkeyOperator.Cluster

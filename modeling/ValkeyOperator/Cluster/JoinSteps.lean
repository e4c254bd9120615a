import ValkeyOperator.Cluster.Join
import ValkeyOperator.Lib.Accepted

/-! What the bootstrap join changes (`bootstrapJoin` of `controller.go`).

The join is a row of steps, the first one with progress ends it. Most steps count the commands
that are accepted, so that one without progress has changed nothing. A batch of introductions
counts the nodes introduced both ways: if only first halves are accepted, it has changed the
cluster and the next step follows. -/

namespace ValkeyOperator.Cluster
open Text Valkey Api
open ValkeyOperator.Action Wire

variable {κ : ChangeKind} {c : NodeState × Command}

inductive ChangeKind where
  | create
  /-- a failover ahead of the stamp is part of the roll -/
  | roll
  | takeover
  | forget
  | meet
  | assign
  | replicate
  | migrate
  | delete
deriving DecidableEq

/-- A config epoch is not a change of the topology. -/
def Command.kind : Command → Option ChangeKind
  | .forget _ => some .forget
  | .addSlotsRange _ => some .assign
  | .setConfigEpoch _ => none
  | .meet _ => some .meet
  | .replicate _ => some .replicate

/-- The kinds of the changes that accepted commands make. -/
def kinds (cs : List (NodeState × Command)) : List ChangeKind := cs.filterMap fun c => c.2.kind

/-- All changes are of this kind. -/
def Uniform (κ : ChangeKind) (cs : List (NodeState × Command)) : Prop := ∀ k ∈ kinds cs, k = κ

/-- The same, and none has been made while the count is zero. -/
def Counted (κ : ChangeKind) (count : Nat) (cs : List (NodeState × Command)) : Prop :=
  Uniform κ cs ∧ (count = 0 → kinds cs = [])

theorem kinds_append (cs ds : List (NodeState × Command)) :
    kinds (cs ++ ds) = kinds cs ++ kinds ds := List.filterMap_append

theorem Uniform.nil (κ : ChangeKind) : Uniform κ [] := fun _ h => nomatch h

theorem Counted.nil (κ : ChangeKind) (count : Nat) : Counted κ count [] := ⟨.nil κ, fun _ => rfl⟩

theorem Uniform.snoc {cs : List (NodeState × Command)} (h : Uniform κ cs)
    (hc : ∀ k, c.2.kind = some k → k = κ) : Uniform κ (cs ++ [c]) := by
  intro k hk
  rw [kinds_append] at hk
  rcases List.mem_append.mp hk with hk | hk
  · exact h k hk
  · obtain ⟨c', hc', hkind⟩ := List.mem_filterMap.mp hk
    rw [List.mem_singleton.mp hc'] at hkind
    exact hc k hkind

/-! ## The loops of the phases -/

section Loops

variable {w : Engines}

theorem keeps_uniform_send (hc : ∀ k, c.2.kind = some k → k = κ) :
    Keeps (Adds w (Uniform κ)) (Wire.send c) fun _ => True :=
  keeps_adds_send fun _ h => h.snoc hc

theorem counted_send (hc : c.2.kind = some κ) (count : Nat) :
    Triple (Adds w (Counted κ count)) (Wire.send c)
      (fun _ => Adds w (Counted κ (count + 1))) (Adds w (Counted κ count)) :=
  triple_send fun _ h => ⟨h.1.snoc fun _ hk => Option.some.inj (hk.symm.trans hc), by omega⟩

theorem Counted.uniform {count : Nat} {v : Engines} (h : Adds w (Counted κ count) v) :
    Adds w (Uniform κ) v := h.mono fun _ h => h.1

theorem assignEach_counts (plans : List (NodeState × List SlotRange)) (count : Nat) :
    Triple (Adds w (Counted .assign count)) (assignEach plans count)
      (fun m => Adds w (Counted .assign m)) (Adds w (Uniform .assign)) := by
  induction plans generalizing count with
  | nil => exact .pure fun _ h => h
  | cons plan rest ih =>
    unfold assignEach
    split
    · exact ih count
    · exact ((counted_send rfl count).failing fun _ => Counted.uniform).mapErr.bind fun _ => ih _

theorem fillGaps_counts (R : Sorter SlotRange) (positions : GoMap Str NodePosition)
    (shardRanges : List SlotRange) (ns : List NodeState) (count : Nat) :
    Triple (Adds w (Counted .assign count)) (fillGaps R positions shardRanges ns count)
      (fun m => Adds w (Counted .assign m)) (Adds w (Uniform .assign)) := by
  induction ns generalizing count with
  | nil => exact .pure fun _ h => h
  | cons n rest ih =>
    unfold fillGaps
    split
    · exact ih count
    · dsimp only
      split
      · exact ih count
      · exact ((counted_send rfl count).failing fun _ => Counted.uniform).mapErr.bind fun _ => ih _

theorem replicateEach_counts (positions : GoMap Str NodePosition) (ids : GoMap Int Str)
    (ns : List NodeState) (count : Nat) :
    Triple (Adds w (Counted .replicate count)) (replicateEach positions ids ns count)
      (fun m => Adds w (Counted .replicate m)) (Adds w (Uniform .replicate)) := by
  induction ns generalizing count with
  | nil => exact .pure fun _ h => h
  | cons n rest ih =>
    unfold replicateEach
    split
    · exact ih count
    · refine (counted_send rfl count).handle (fun _ => ih _) fun e => ?_
      split
      · exact ih count
      · exact .throw fun _ => Counted.uniform

theorem assignSlotsToPendingPrimaries_counts (S : Sorter NodeState)
    (cluster : PerconaValkeyCluster) (state : ClusterState) (nodes : List ValkeyNode) :
    Triple (Adds w (Counted .assign 0)) (assignSlotsToPendingPrimaries S cluster state nodes)
      (fun m => Adds w (Counted .assign m)) (Adds w (Uniform .assign)) := by
  unfold assignSlotsToPendingPrimaries
  dsimp only
  split
  · exact .pure fun _ h => h
  · split
    · exact .pure fun _ h => h
    · exact assignEach_counts _ 0

/-- The loop over the stale IDs has sent nothing as long as it has not acted. -/
theorem forgetEach_acts (cluster : PerconaValkeyCluster) (state : ClusterState) (ids : List Str)
    (acted : Bool) :
    Triple (Adds w (Counted .forget acted.toNat)) (forgetEach cluster state ids acted)
      (fun acted' => Adds w (Counted .forget acted'.toNat)) (Adds w (Uniform .forget)) := by
  induction ids generalizing acted with
  | nil => exact .pure fun _ h => h
  | cons id rest ih =>
    unfold forgetEach
    split
    · exact ih acted
    · have hbroadcast : Keeps (Adds w (Uniform .forget)) (broadcastForget state id) fun _ => True := by
        refine Keeps.forM fun n _ => ?_
        split
        · exact Keeps.pure trivial
        · exact (keeps_uniform_send (c := (n, Command.forget id))
            fun _ h => (Option.some.inj h).symm).mapErr
      refine ((Triple.of_keeps hbroadcast).pre fun _ => Counted.uniform).bind fun _ => ?_
      exact (ih true).pre fun _ h => h.mono fun _ h => ⟨h, fun hzero => absurd hzero (by decide)⟩

theorem keeps_uniform_meet (n : NodeState) (ip : Str) :
    Keeps (Adds w (Uniform .meet)) (Wire.send (n, Command.meet ip)) fun _ => True :=
  keeps_uniform_send (c := (n, Command.meet ip)) fun _ h => (Option.some.inj h).symm

theorem kinds_snoc_epoch (cs : List (NodeState × Command)) (n : NodeState) (epoch : Int) :
    kinds (cs ++ [(n, .setConfigEpoch epoch)]) = kinds cs := by
  rw [kinds_append]
  exact List.append_nil _

theorem meetEach_counts (target : NodeState) (ns : List NodeState) (count : Nat) :
    Triple (Adds w (Counted .meet count)) (meetEach target ns count)
      (fun m => Adds w (Counted .meet m)) (Adds w (Uniform .meet)) := by
  induction ns generalizing count with
  | nil => exact .pure fun _ h => h
  | cons n rest ih =>
    unfold meetEach
    refine ((counted_send rfl count).failing fun _ => Counted.uniform).mapErr.bind fun _ => ?_
    refine ((counted_send rfl (count + 1)).failing fun _ => Counted.uniform).mapErr.bind fun _ => ?_
    exact (ih (count + 1)).pre fun _ h => h.mono fun _ h => ⟨h.1, fun hzero => by omega⟩

/-- Other than in a batch, a half that is refused fails the step. -/
theorem meetIsolatedNodes_counts (S : Sorter NodeState) (state : ClusterState) :
    Triple (Adds w (Counted .meet 0)) (meetIsolatedNodes S state)
      (fun m => Adds w (Counted .meet m)) (Adds w (Uniform .meet)) := by
  have hepoch : ∀ n epoch, Keeps (Adds w (Counted .meet 0))
      (Wire.send (n, Command.setConfigEpoch epoch)) fun _ => True := fun n epoch =>
    keeps_adds_send fun cs h => by
      unfold Counted Uniform
      rw [kinds_snoc_epoch]
      exact h
  unfold meetIsolatedNodes
  dsimp only
  split
  · exact .pure fun _ h => h
  · split
    · exact .pure fun _ h => h
    · exact ((Triple.of_keeps (keeps_bumpConfigEpochs hepoch _ _ _)).failing
        fun _ => Counted.uniform).bind fun _ => meetEach_counts _ _ 0

end Loops

/-! ## The steps of the join -/

/-- A step of the join; its failure or its progress ends the pass. -/
structure JoinStep where
  reason : Str
  message : Str
  progressed : Action Engines Bool
  /-- introductions of which a refused half is passed over -/
  batch : Bool := false

def joinPhases (steps : List JoinStep) : Action Engines JoinOutcome :=
  steps.foldr (fun step next => joinPhase step.reason step.message step.progressed next)
    (pure .nothing)

/-- The two steps of a restore target count as one phase, and so do those of the repair. -/
def joinSteps (S : Sorter NodeState) (R : Sorter SlotRange) (cluster : PerconaValkeyCluster)
    (state : ClusterState) (nodes : List ValkeyNode) : List JoinStep :=
  (if !isRestoreTarget cluster || decide (state.getUnassignedSlots = []) then []
  else
    [⟨reasonClusterMeet, "re-forming restore-seeded cluster",
        someDone (meetAllReachable S state false), true⟩,
      ⟨reasonClusterMeet, "re-forming restore-seeded cluster",
        assignRestoreSlotRanges R cluster state nodes, false⟩]) ++
  [⟨reasonClusterMeet, "introducing nodes via CLUSTER MEET",
      someDone (meetIsolatedNodes S state), false⟩,
    ⟨reasonSlotsUnassigned, "assigning slots to primaries",
      someDone (assignSlotsToPendingPrimaries S cluster state nodes), false⟩,
    ⟨reasonMissingReplicas, "attaching replicas",
      someDone (replicatePendingReplicas state nodes), false⟩] ++
  if !allReachableClusterStateOK state && allNodesReady nodes then
    [⟨[], "repairing stale gossip via CLUSTER MEET",
      someDone (meetAllReachable S state true), true⟩]
  else []

/-- Introducing the nodes of a restore target and filling its gaps are two steps in a row. -/
theorem joinPhase_reform {S : Sorter NodeState} {R : Sorter SlotRange}
    {cluster : PerconaValkeyCluster} {state : ClusterState} {nodes : List ValkeyNode}
    (htarget : isRestoreTarget cluster = true) (hgaps : state.getUnassignedSlots ≠ [])
    (reason message : Str) (next : Action Engines JoinOutcome) :
    joinPhase reason message (meetAllReachable S state false >>=
        reformRestoreTarget R cluster state nodes) next =
      joinPhase reason message (someDone (meetAllReachable S state false))
        (joinPhase reason message (assignRestoreSlotRanges R cluster state nodes) next) := by
  funext w
  unfold joinPhase handle
  cases hmet : meetAllReachable S state false w with
  | error e v =>
    rw [bind_error hmet, someDone, bind_error hmet]
  | ok met v =>
    rw [bind_ok hmet, someDone, bind_ok hmet]
    unfold reformRestoreTarget
    by_cases hzero : 0 < met
    · simp only [htarget, hgaps, hzero, Bool.not_true, Bool.false_eq_true, if_false, if_true,
        decide_true]
      rfl
    · simp only [htarget, hgaps, hzero, Bool.not_true, Bool.false_eq_true, if_false,
        decide_false]
      rfl

theorem joinPhase_idle (reason message : Str) (next : Action Engines JoinOutcome) :
    joinPhase reason message (pure false) next = next := rfl

theorem repairPhase_eq (S : Sorter NodeState) (state : ClusterState) (nodes : List ValkeyNode) :
    repairPhase S state nodes = joinPhases
      (if !allReachableClusterStateOK state && allNodesReady nodes then
        [⟨[], "repairing stale gossip via CLUSTER MEET",
          someDone (meetAllReachable S state true), true⟩]
      else []) := by
  unfold repairPhase
  split <;> rfl

theorem bootstrapJoin_eq (S : Sorter NodeState) (R : Sorter SlotRange)
    (cluster : PerconaValkeyCluster) (state : ClusterState) (nodes : List ValkeyNode) :
    bootstrapJoin S R cluster state nodes = joinPhases (joinSteps S R cluster state nodes) := by
  unfold bootstrapJoin reformPhase joinSteps
  rw [repairPhase_eq]
  by_cases hidle : (!isRestoreTarget cluster || decide (state.getUnassignedSlots = [])) = true
  · rw [if_pos hidle, if_pos hidle, joinPhase_idle]
    rfl
  · have hdue : isRestoreTarget cluster = true ∧ state.getUnassignedSlots ≠ [] := by
      simpa using hidle
    rw [if_neg hidle, if_neg hidle, joinPhase_reform hdue.1 hdue.2]
    rfl

/-- What a step changes, and that it reports what it has changed unless it is a batch. -/
structure Does (κ : ChangeKind) (step : JoinStep) : Prop where
  uniform : ∀ w, Adds w (Uniform κ) (step.progressed.after w)
  reports : step.batch = false → ∀ w v, step.progressed w = .ok false v → Adds w (kinds · = []) v

theorem Does.of_counts {reason message : Str} {count : Action Engines Nat}
    (h : ∀ w, Triple (Adds w (Counted κ 0)) count (fun m => Adds w (Counted κ m))
      (Adds w (Uniform κ))) : Does κ ⟨reason, message, someDone count, false⟩ where
  uniform w := by
    rw [someDone, after_bind_pure]
    exact ((h w).post (fun _ _ => Counted.uniform) fun _ h => h).after (.refl (.nil κ 0))
  reports := by
    intro _ w v hfalse
    have hcount := h w w (.refl (.nil κ 0))
    rw [someDone_false hfalse] at hcount
    exact hcount.mono fun _ hcs => hcs.2 rfl

theorem Does.of_batch (S : Sorter NodeState) (state : ClusterState) (skip : Bool)
    (reason message : Str) :
    Does .meet ⟨reason, message, someDone (meetAllReachable S state skip), true⟩ where
  uniform w := by
    rw [someDone, after_bind_pure]
    exact (keeps_meetAllReachable keeps_uniform_meet S state skip).after (.refl (.nil .meet))
  reports := nofun

theorem joinSteps_do (S : Sorter NodeState) (R : Sorter SlotRange)
    (cluster : PerconaValkeyCluster) (state : ClusterState) (nodes : List ValkeyNode) :
    ∀ step ∈ joinSteps S R cluster state nodes, ∃ κ, Does κ step := by
  unfold joinSteps
  simp only [List.forall_mem_append]
  refine ⟨⟨?_, ?_⟩, ?_⟩
  · split
    · exact List.forall_mem_nil _
    · simp only [List.forall_mem_cons]
      exact ⟨⟨_, .of_batch S state false _ _⟩, ⟨_, .of_counts fun _ => fillGaps_counts R _ _ _ 0⟩,
        List.forall_mem_nil _⟩
  · simp only [List.forall_mem_cons]
    exact ⟨⟨_, .of_counts fun _ => meetIsolatedNodes_counts S state⟩,
      ⟨_, .of_counts fun _ => assignSlotsToPendingPrimaries_counts S cluster state nodes⟩,
      ⟨_, .of_counts fun _ => replicateEach_counts _ _ _ 0⟩, List.forall_mem_nil _⟩
  · split
    · simp only [List.forall_mem_cons]
      exact ⟨⟨_, .of_batch S state true _ _⟩, List.forall_mem_nil _⟩
    · exact List.forall_mem_nil _

/-! ## What the join changes -/

/-- The steps that are taken, each with the wire it starts from. -/
def visited : List JoinStep → Engines → List (JoinStep × Engines)
  | [], _ => []
  | step :: rest, w =>
    (step, w) ::
      match step.progressed w with
      | .ok false v => visited rest v
      | _ => []

/-- A batch has introduced no node both ways, although some half was accepted. -/
def Unreported (steps : List JoinStep) (w : Engines) : Prop :=
  ∃ x ∈ visited steps w, x.1.batch = true ∧ x.1.progressed.outcome x.2 = .ok false ∧
    kinds (accepted x.1.progressed x.2) ≠ []

instance (steps : List JoinStep) (w : Engines) : Decidable (Unreported steps w) :=
  inferInstanceAs (Decidable (∃ x ∈ visited steps w, _))

section Join

variable {steps : List JoinStep}

theorem Does.sends {step : JoinStep} (h : Does κ step) : Wire.Sends step.progressed :=
  fun w => (h.uniform w).mono fun _ _ => trivial

theorem sends_joinPhases (hsteps : ∀ step ∈ steps, ∃ κ, Does κ step) :
    Wire.Sends (joinPhases steps) := by
  induction steps with
  | nil => exact .pure _
  | cons step rest ih =>
    obtain ⟨⟨κ, hdoes⟩, hrest⟩ := List.forall_mem_cons.mp hsteps
    refine hdoes.sends.handle (fun p => ?_) fun _ => .pure _
    split
    · exact .pure _
    · exact ih hrest

theorem accepted_joinPhases_cons {step : JoinStep} {rest : List JoinStep} (hdoes : Does κ step)
    (hrest : Wire.Sends (joinPhases rest)) (w : Engines) :
    accepted (joinPhases (step :: rest)) w = accepted step.progressed w ++
      match step.progressed w with
      | .ok false v => accepted (joinPhases rest) v
      | _ => [] := by
  have hafter := after_handle step.progressed
    (fun p => if p then pure (JoinOutcome.progressed step.message) else joinPhases rest)
    (fun e => pure (.failed step.reason e)) w
  change (joinPhases (step :: rest)).after w = _ at hafter
  cases hr : step.progressed w with
  | error e v =>
    have hv : step.progressed.after w = v := by
      unfold Action.after
      rw [hr]
    rw [hr] at hafter
    rw [accepted_then hdoes.sends hv (.pure _) hafter, accepted_pure]
  | ok p v =>
    have hv : step.progressed.after w = v := Returns.after_eq hr
    rw [hr] at hafter
    cases p with
    | true => rw [accepted_then hdoes.sends hv (.pure _) hafter, accepted_pure]
    | false => rw [accepted_then hdoes.sends hv hrest hafter]

theorem outcome_joinPhases_cons (step : JoinStep) (rest : List JoinStep) (w : Engines) :
    (joinPhases (step :: rest)).outcome w =
      match step.progressed w with
      | .ok true _ => .ok (.progressed step.message)
      | .ok false v => (joinPhases rest).outcome v
      | .error e _ => .ok (.failed step.reason e) := by
  have hrun : joinPhases (step :: rest) =
      joinPhase step.reason step.message step.progressed (joinPhases rest) := rfl
  rw [hrun]
  unfold Action.outcome joinPhase handle
  rcases step.progressed w with ⟨_ | _, v⟩ | ⟨e, v⟩ <;> rfl

/-- If every batch reports what it changes, the changes are those of the last step. -/
theorem joinPhases_uniform (hsteps : ∀ step ∈ steps, ∃ κ, Does κ step) {w : Engines}
    (hreported : ¬ Unreported steps w) :
    (∃ κ, Uniform κ (accepted (joinPhases steps) w)) ∧
      ((joinPhases steps).outcome w = .ok .nothing →
        kinds (accepted (joinPhases steps) w) = []) := by
  induction steps generalizing w with
  | nil =>
    have hnone : accepted (joinPhases []) w = [] := accepted_pure _ w
    rw [hnone]
    exact ⟨⟨.meet, .nil _⟩, fun _ => rfl⟩
  | cons step rest ih =>
    obtain ⟨⟨κ, hdoes⟩, hrest⟩ := List.forall_mem_cons.mp hsteps
    have huniform : Uniform κ (accepted step.progressed w) := (hdoes.uniform w).accepted
    rw [accepted_joinPhases_cons hdoes (sends_joinPhases hrest)]
    rw [outcome_joinPhases_cons]
    cases hr : step.progressed w with
    | error e v =>
      rw [List.append_nil]
      exact ⟨⟨κ, huniform⟩, fun hnothing => nomatch hnothing⟩
    | ok p v =>
      cases p with
      | true =>
        rw [List.append_nil]
        exact ⟨⟨κ, huniform⟩, fun hnothing => nomatch hnothing⟩
      | false =>
        have hvisited : visited (step :: rest) w = (step, w) :: visited rest v := by
          rw [visited, hr]
        have hnone : kinds (accepted step.progressed w) = [] := by
          cases hbatch : step.batch with
          | false => exact (Returns.after_eq hr ▸ hdoes.reports hbatch w v hr).accepted
          | true =>
            by_contra hchanged
            refine hreported ⟨(step, w), ?_, hbatch, ?_, hchanged⟩
            · rw [hvisited]
              exact List.mem_cons_self
            · unfold Action.outcome
              dsimp only
              rw [hr]
        have hlater : ¬ Unreported rest v := by
          rintro ⟨x, hx, hstep⟩
          refine hreported ⟨x, ?_, hstep⟩
          rw [hvisited]
          exact List.mem_cons_of_mem _ hx
        unfold Uniform
        rw [kinds_append, hnone, List.nil_append]
        exact ih hrest hlater

end Join

end ValkeyOperator.Cluster

import ValkeyOperator.Cluster.JoinSteps

/-! The kinds of changes that one pass makes (`controller.go`).

A phase that has made progress ends the pass, so that the next pass sees what has come of it.
Each phase makes changes of one kind; what a step of the join has done without reporting it
is followed by the changes of another phase. -/

namespace ValkeyOperator.Cluster
open Text Valkey Api
open ValkeyOperator.Action Wire
open Backup (LeaseWorld)

/-! ## What the phases of a pass change -/

/-- The inputs of a pass, and the replies to the commands of its join. -/
structure PassScript where
  env : PassInputs
  rangeSorter : Sorter SlotRange := .insertion
  replies : List (Option Err) := []

namespace PassScript

def join (p : PassScript) (cluster : PerconaValkeyCluster) (state : ClusterState)
    (nodes : List ValkeyNode) : Action Engines JoinOutcome :=
  bootstrapJoin p.env.stateSorter p.rangeSorter cluster state nodes

/-- What becomes of the join over the state that the pass scrapes. -/
def joinOutcome (p : PassScript) (w : ClusterWorld) : JoinOutcome :=
  match p.env.scrape (w.listed p.env) with
  | none => .nothing
  | some state =>
    match (p.join (w.wanted p.env) state (w.listed p.env)).outcome ⟨[], p.replies⟩ with
    | .ok outcome => outcome
    | .error e => .failed [] e

def inputs (p : PassScript) (w : ClusterWorld) : PassInputs := { p.env with join := p.joinOutcome w }

end PassScript

section Changes

variable (env : PassInputs)

/-- The node whose deletion the teardown asks for. -/
def teardownNode (s : PassState) : Option ValkeyNode :=
  if !s.finalizers || (env.phase .nodeList).isSome then none
  else (nextTeardownNode env.nodeSorter s.nodes s.leaving).filter fun n => !s.leaving.contains n.name

/-- The deletions issued before the node stepping. -/
def ClusterWorld.teardownIssued (w : ClusterWorld) : List ChangeKind :=
  match gateStage env w.objectMeta (w.contract env) w.start with
  | .error _ => []
  | .ok s =>
    if w.deleting && (teardownNode env s).isSome then [.delete]
    else []

/-- The roll of a node begins with a failover that an engine accepts. -/
def failoverAccepted (state : Option ClusterState) (node : ValkeyNode) : Bool :=
  match state, failoverOf env.failover state node with
  | some state, some (shardID, .ok _) =>
    ((state.primaryByShardID shardID).bind fun primary =>
      state.highestOffsetReplica primary.id).isSome
  | _, _ => false

def rollChanges (lease : LeaseWorld) (configHash : Str) (s : PassState) : List ChangeKind :=
  let state := env.scrape s.nodes
  (match rollReport env.nodeSorter (rollInputs env lease s.board) s.cluster s.nodes state configHash,
      nextRollCandidate env.nodeSorter s.cluster s.nodes state configHash with
    | .failoverPending, some target | .stamps _ _, some target =>
      if failoverAccepted env state target then [.roll] else []
    | _, _ => []) ++
  match stepTarget env.nodeSorter (s.stepEnv env lease configHash) s.cluster s.nodes configHash with
  | some _ => [.roll]
  | none => []

def nodeChanges (lease : LeaseWorld) (configHash : Str) (s : PassState) : List ChangeKind :=
  match stepDecision env.nodeSorter (s.stepEnv env lease configHash) s.cluster s.nodes configHash with
  | .done | .wait => []
  | .create _ => if env.nodeWrite = none then [.create] else []
  | .roll _ => rollChanges env lease configHash s

/-- The takeovers up to the first one that fails. -/
def takeovers (state : ClusterState) : List NodeState → List ChangeKind
  | [] => []
  | primary :: rest =>
    match state.bestReplicaOf primary.id with
    | none => takeovers state rest
    | some rep =>
      match env.takeover rep.id with
      | some _ => []
      | none => .takeover :: takeovers state rest

def promotions (cluster : PerconaValkeyCluster) (state : ClusterState) : List ChangeKind :=
  if cluster.spec.persistence.isSome then []
  else if state.hasFailoverQuorum then []
  else takeovers env state state.failedPrimaries

def recoverChanges (state : ClusterState) (s : PassState) : List ChangeKind :=
  promotions env s.cluster state ++
  match promoteOrphanedReplicas env s.cluster state with
  | (false, none) => kinds (accepted (forgetStaleNodes s.cluster state s.nodes)
      { replies := env.forgetReplies })
  | _ => []

def PassScript.joinChanges (p : PassScript) (state : ClusterState) (s : PassState) :
    List ChangeKind :=
  kinds (accepted (p.join s.cluster state s.nodes) ⟨[], p.replies⟩)

/-- What the scaling does, given whether a deletion counts and which ends of a move do. -/
def scaleLog (state : ClusterState) (s : PassState) (deleted : Bool)
    (migrated : Bool × MigrateOutcome → Bool) : List ChangeKind :=
  match handleScaleIn env.nodeSorter env.stateSorter s.cluster state s.nodes with
  | .deleteReplica _ | .deleteDrained _ => if deleted then [.delete] else []
  | .migrate move => if migrated (migrateSlots env state move) then [.migrate] else []
  | .nothing =>
    match planRebalanceMove env.stateSorter state s.cluster.spec.shards.toInt with
    | none => []
    | some move => if migrated (migrateSlots env state move) then [.migrate] else []

def MigrateOutcome.isMoved : MigrateOutcome → Bool
  | .moved => true
  | _ => false

def scaleChanges (state : ClusterState) (s : PassState) : List ChangeKind :=
  scaleLog env state s (decide (env.delete = none)) fun sent => sent.1 && sent.2.isMoved

def scaleIssued (state : ClusterState) (s : PassState) : List ChangeKind :=
  scaleLog env state s true Prod.fst

end Changes

/-- What each phase writes down. -/
structure PhaseLog where
  opening : List ChangeKind
  nodes : PassState → List ChangeKind
  recover : ClusterState → PassState → List ChangeKind
  join : ClusterState → PassState → List ChangeKind
  scale : ClusterState → PassState → List ChangeKind

/-- The log of a pass: a phase writes to it if those before it let the pass go on. -/
def ClusterWorld.collect (env : PassInputs) (w : ClusterWorld) (log : PhaseLog) :
    List ChangeKind :=
  match w.opening env with
  | .error _ => log.opening
  | .ok s => log.nodes s ++
    match nodeStage env w.objectMeta w.lease w.configHash s with
    | .error _ => []
    | .ok s =>
      match scrapeStage env w.objectMeta s with
      | .error _ => []
      | .ok state => log.recover state s ++
        match recoverStage env w.objectMeta state s with
        | .error _ => []
        | .ok s => log.join state s ++
          match joinStage env w.objectMeta state s with
          | .error _ => []
          | .ok s => log.scale state s

/-- The changes that take effect in a pass. -/
def ClusterWorld.changes (p : PassScript) (w : ClusterWorld) : List ChangeKind :=
  let env := p.inputs w
  w.collect env {
    opening := if env.delete = none then w.teardownIssued env else []
    nodes := nodeChanges env w.lease w.configHash
    recover := recoverChanges env
    join := p.joinChanges
    scale := scaleChanges env }

/-- The slot migrations and deletions of nodes that a pass issues. -/
def ClusterWorld.issued (p : PassScript) (w : ClusterWorld) : List ChangeKind :=
  let env := p.inputs w
  w.collect env {
    opening := w.teardownIssued env
    nodes := fun _ => []
    recover := fun _ _ => []
    join := fun _ _ => []
    scale := scaleIssued env }

/-! ## How far a pass gets -/

section Stages

variable {env : PassInputs} {o : ObjectMeta} {s s' : PassState} {state : ClusterState}

theorem nodeStage_eq_ok {lease : LeaseWorld} {configHash : Str} :
    nodeStage env o lease configHash s = .ok s' ↔
      stepDecision env.nodeSorter (s.stepEnv env lease configHash) s.cluster s.nodes configHash =
        .done ∧ s' = s := by
  unfold nodeStage
  dsimp only
  split
  · simp [*, eq_comm]
  · simp [*]
  · simp [*]
  · simp [*]

theorem scrapeStage_eq_ok : scrapeStage env o s = .ok state ↔ env.scrape s.nodes = some state := by
  unfold scrapeStage
  cases env.scrape s.nodes <;> simp

theorem recoverStage_eq_ok :
    recoverStage env o state s = .ok s' ↔ Recovered env s state ∧ s' = s := by
  constructor
  · intro h
    have hends := recoverStage_ends env o s state
    rw [h] at hends
    exact ⟨hends.2, hends.1⟩
  · rintro ⟨hrecovered, rfl⟩
    unfold recoverStage
    rw [hrecovered.promoted]
    dsimp only
    rw [hrecovered.forgotten]

theorem joinStage_eq_ok : joinStage env o state s = .ok s' ↔ env.join = .nothing ∧ s' = s := by
  unfold joinStage
  cases env.join <;> simp [eq_comm]

end Stages

/-! ## Each phase by itself -/

section Phases

variable {env : PassInputs} {s : PassState} {state : ClusterState}

/-- The log has one kind of entry. -/
def OneKind (ks : List ChangeKind) : Prop := ∃ κ, ∀ k ∈ ks, k = κ

theorem OneKind.nil : OneKind [] := ⟨.meet, fun _ h => nomatch h⟩

theorem eq_of_mem_ite {p : Prop} [Decidable p] {κ k : ChangeKind} (h : k ∈ if p then [κ] else []) :
    k = κ := by
  split at h
  · exact List.mem_singleton.mp h
  · cases h

theorem oneKind_ite (p : Prop) [Decidable p] (κ : ChangeKind) :
    OneKind (if p then [κ] else []) := ⟨κ, fun _ => eq_of_mem_ite⟩

theorem rollChanges_roll {lease : LeaseWorld} {configHash : Str} :
    ∀ k ∈ rollChanges env lease configHash s, k = .roll := by
  unfold rollChanges
  refine List.forall_mem_append.mpr ⟨?_, ?_⟩
  · split
    · exact fun _ => eq_of_mem_ite
    · exact fun _ => eq_of_mem_ite
    · exact List.forall_mem_nil _
  · split
    · exact fun _ hk => List.mem_singleton.mp hk
    · exact List.forall_mem_nil _

theorem nodeChanges_oneKind {lease : LeaseWorld} {configHash : Str} :
    OneKind (nodeChanges env lease configHash s) := by
  unfold nodeChanges
  split
  · exact .nil
  · exact .nil
  · exact oneKind_ite _ _
  · exact ⟨.roll, rollChanges_roll⟩

theorem takeovers_takeover (primaries : List NodeState) :
    ∀ k ∈ takeovers env state primaries, k = .takeover := by
  induction primaries with
  | nil => exact List.forall_mem_nil _
  | cons primary rest ih =>
    unfold takeovers
    split
    · exact ih
    · split
      · exact List.forall_mem_nil _
      · exact List.forall_mem_cons.mpr ⟨rfl, ih⟩

theorem takeOverEach_idle {primaries : List NodeState} {acted : Bool}
    (h : takeOverEach env state primaries acted = (false, none)) :
    acted = false ∧ takeovers env state primaries = [] := by
  induction primaries generalizing acted with
  | nil => exact ⟨(Prod.mk.inj h).1, rfl⟩
  | cons primary rest ih =>
    unfold takeOverEach at h
    unfold takeovers
    cases hbest : state.bestReplicaOf primary.id with
    | none =>
      rw [hbest] at h
      exact ih h
    | some rep =>
      rw [hbest] at h
      dsimp only at h ⊢
      cases htake : env.takeover rep.id with
      | some e =>
        rw [htake] at h
        cases (Prod.mk.inj h).2
      | none =>
        rw [htake] at h
        cases (ih h).1

theorem promotions_takeover : ∀ k ∈ promotions env s.cluster state, k = .takeover := by
  unfold promotions
  split
  · exact List.forall_mem_nil _
  · split
    · exact List.forall_mem_nil _
    · exact takeovers_takeover _

theorem promotions_idle (h : promoteOrphanedReplicas env s.cluster state = (false, none)) :
    promotions env s.cluster state = [] := by
  unfold promoteOrphanedReplicas at h
  unfold promotions
  split at h
  · rename_i hpersistent
    rw [if_pos hpersistent]
  · rename_i hpersistent
    rw [if_neg hpersistent]
    split at h
    · rename_i hquorum
      rw [if_pos hquorum]
    · rename_i hquorum
      rw [if_neg hquorum]
      exact (takeOverEach_idle h).2

theorem forgetStaleNodes_acts (w : Engines) (cluster : PerconaValkeyCluster)
    (state : ClusterState) (nodes : List ValkeyNode) :
    Triple (Adds w (· = [])) (forgetStaleNodes cluster state nodes)
      (fun acted => Adds w (Counted .forget acted.toNat)) (Adds w (Uniform .forget)) := by
  unfold forgetStaleNodes
  dsimp only
  have hnil : ∀ cs : List (NodeState × Command), cs = [] → Counted .forget 0 cs := by
    rintro _ rfl
    exact .nil _ _
  split
  · exact .pure fun _ h => h.mono hnil
  · exact (forgetEach_acts cluster state _ false).pre fun _ h => h.mono hnil

theorem recoverChanges_oneKind : OneKind (recoverChanges env state s) := by
  unfold recoverChanges
  split
  · rename_i hidle
    rw [promotions_idle hidle, List.nil_append]
    exact ⟨.forget, (((forgetStaleNodes_acts _ _ _ _).post (fun _ _ => Counted.uniform)
      fun _ h => h).after (.refl rfl)).accepted⟩
  · rw [List.append_nil]
    exact ⟨.takeover, promotions_takeover⟩

theorem recoverChanges_idle (h : Recovered env s state) : recoverChanges env state s = [] := by
  rw [recoverChanges, promotions_idle h.promoted, List.nil_append, h.promoted]
  obtain ⟨v, hret⟩ := Returns.of_outcome h.forgotten
  have hacts := forgetStaleNodes_acts ⟨[], env.forgetReplies⟩ s.cluster state s.nodes _
    (.refl rfl)
  rw [show forgetStaleNodes s.cluster state s.nodes ⟨[], env.forgetReplies⟩ = .ok false v from hret]
    at hacts
  exact (Returns.after_eq hret ▸ hacts.mono fun _ h => h.2 rfl).accepted

theorem scaleLog_short (env : PassInputs) (state : ClusterState) (s : PassState) (deleted : Bool)
    (migrated : Bool × MigrateOutcome → Bool) :
    ∃ (p : Bool) (κ : ChangeKind), scaleLog env state s deleted migrated = if p then [κ] else [] := by
  unfold scaleLog
  split
  · exact ⟨_, _, rfl⟩
  · exact ⟨_, _, rfl⟩
  · exact ⟨_, _, rfl⟩
  · split
    · exact ⟨false, .migrate, rfl⟩
    · exact ⟨_, _, rfl⟩

theorem scaleChanges_oneKind : OneKind (scaleChanges env state s) := by
  obtain ⟨p, κ, h⟩ := scaleLog_short env state s (decide (env.delete = none))
    fun sent => sent.1 && sent.2.isMoved
  rw [scaleChanges, h]
  exact oneKind_ite _ _

theorem length_ite_le (p : Prop) [Decidable p] (κ : ChangeKind) :
    (if p then [κ] else []).length ≤ 1 := by
  split <;> simp

theorem scaleIssued_short : (scaleIssued env state s).length ≤ 1 := by
  obtain ⟨p, κ, h⟩ := scaleLog_short env state s true Prod.fst
  rw [scaleIssued, h]
  exact length_ite_le _ _

end Phases

/-! ## One kind of change in a pass -/

/-- A batch of introductions, of the re-forming or of the gossip repair, has had first halves
accepted and no node introduced both ways. -/
def PassScript.HalfMet (p : PassScript) (w : ClusterWorld) : Prop :=
  ∃ state, ReachesEngines (p.inputs w) w ∧
    (p.inputs w).scrape (w.listed (p.inputs w)) = some state ∧
    Recovered (p.inputs w) (w.opened (p.inputs w)) state ∧
    Unreported (joinSteps p.env.stateSorter p.rangeSorter (w.wanted p.env) state (w.listed p.env))
      ⟨[], p.replies⟩

section Pass

variable {p : PassScript} {w : ClusterWorld}

theorem outcome_of_nothing {state : ClusterState}
    (hstate : p.env.scrape (w.listed p.env) = some state) (h : p.joinOutcome w = .nothing) :
    (p.join (w.wanted p.env) state (w.listed p.env)).outcome ⟨[], p.replies⟩ = .ok .nothing := by
  unfold PassScript.joinOutcome at h
  rw [hstate] at h
  dsimp only at h
  split at h
  · rename_i outcome houtcome
    rw [houtcome, h]
  · cases h

theorem changes_oneKind (h : ¬ p.HalfMet w) : OneKind (w.changes p) := by
  unfold ClusterWorld.changes ClusterWorld.collect
  dsimp only
  cases hopening : w.opening (p.inputs w) with
  | error e =>
    dsimp only
    split
    · unfold ClusterWorld.teardownIssued
      split
      · exact .nil
      · exact oneKind_ite _ _
    · exact .nil
  | ok s =>
    obtain ⟨hreach, rfl⟩ := opening_eq_ok.mp hopening
    dsimp only
    cases hnodes : nodeStage (p.inputs w) w.objectMeta w.lease w.configHash (w.opened (p.inputs w)) with
    | error e =>
      rw [List.append_nil]
      exact nodeChanges_oneKind
    | ok s =>
      obtain ⟨hdone, rfl⟩ := nodeStage_eq_ok.mp hnodes
      have hnone : nodeChanges (p.inputs w) w.lease w.configHash (w.opened (p.inputs w)) = [] := by
        rw [nodeChanges, hdone]
      rw [hnone, List.nil_append]
      dsimp only
      cases hscrape : scrapeStage (p.inputs w) w.objectMeta (w.opened (p.inputs w)) with
      | error e => exact .nil
      | ok state =>
        dsimp only
        cases hrecover : recoverStage (p.inputs w) w.objectMeta state (w.opened (p.inputs w)) with
        | error e =>
          rw [List.append_nil]
          exact recoverChanges_oneKind
        | ok s =>
          obtain ⟨hrecovered, rfl⟩ := recoverStage_eq_ok.mp hrecover
          rw [recoverChanges_idle hrecovered, List.nil_append]
          have hstate := scrapeStage_eq_ok.mp hscrape
          have hreported : ¬ Unreported (joinSteps p.env.stateSorter p.rangeSorter (w.wanted p.env)
              state (w.listed p.env)) ⟨[], p.replies⟩ := fun hunreported =>
            h ⟨state, reachesEngines hreach hdone, hstate, hrecovered, hunreported⟩
          obtain ⟨huniform, hidle⟩ := joinPhases_uniform (joinSteps_do _ _ _ _ _) hreported
          rw [← bootstrapJoin_eq] at huniform hidle
          dsimp only
          cases hjoin : joinStage (p.inputs w) w.objectMeta state (w.opened (p.inputs w)) with
          | error e =>
            rw [List.append_nil]
            exact huniform
          | ok s =>
            obtain ⟨hnothing, rfl⟩ := joinStage_eq_ok.mp hjoin
            have hquiet : p.joinChanges state (w.opened (p.inputs w)) = [] :=
              hidle (outcome_of_nothing hstate hnothing)
            rw [hquiet, List.nil_append]
            exact scaleChanges_oneKind

theorem issued_short (p : PassScript) (w : ClusterWorld) : (w.issued p).length ≤ 1 := by
  unfold ClusterWorld.issued ClusterWorld.collect
  dsimp only
  split
  · unfold ClusterWorld.teardownIssued
    split
    · exact Nat.zero_le _
    · exact length_ite_le _ _
  · simp only [List.nil_append]
    split
    · exact Nat.zero_le _
    split
    · exact Nat.zero_le _
    split
    · exact Nat.zero_le _
    split
    · exact Nat.zero_le _
    · exact scaleIssued_short

/-- Without a batch that is left half done, the changes of a pass are of one kind. -/
theorem one_kind_per_pass (h : ¬ p.HalfMet w) :
    (∀ k ∈ w.changes p, ∀ k' ∈ w.changes p, k = k') ∧ (w.issued p).length ≤ 1 := by
  obtain ⟨κ, hκ⟩ := changes_oneKind h
  refine ⟨?_, issued_short p w⟩
  intro k hk k' hk'
  rw [hκ k hk, hκ k' hk']

end Pass

/-- A formed pair that is to lose its replica. -/
def shrinkingPair : ClusterWorld :=
  (formation pairEngines ++
    [ClusterEvent.edit { pairCluster.spec with replicas := 0 } "1.0" "h1"]).foldl
    ClusterWorld.step (freshWorld pairCluster.spec)

/-- Its engines now report a failed cluster. -/
def failingEngines (name : Str) : NodeState × Bool :=
  ({ (pairEngines name).1 with clusterStateOK := false }, true)

/-- With every introduction accepted the repair ends the pass, and the deletion waits. -/
theorem one_kind_per_pass_repaired :
    let repair : PassScript := { env := quietInputs failingEngines }
    shrinkingPair.changes repair = [.meet, .meet] ∧
      (∀ k ∈ shrinkingPair.changes repair, ∀ k' ∈ shrinkingPair.changes repair, k = k') ∧
      (shrinkingPair.issued repair).length ≤ 1 := by
  intro repair
  refine ⟨by decide +kernel, one_kind_per_pass ?_⟩
  rintro ⟨state, -, hstate, -, hhalf⟩
  cases hstate
  revert hhalf
  decide +kernel

/-- The first node takes the introduction, the second one does not answer to its own. -/
def halfMetPass : PassScript where
  env := quietInputs failingEngines
  replies := [none, some ⟨"LOADING", false⟩]

/-- The repair has introduced a node one way, and the same pass deletes another. -/
theorem repair_then_deletion :
    shrinkingPair.changes halfMetPass = [.meet, .delete] := by
  decide +kernel

end ValkeyOperator.Cluster

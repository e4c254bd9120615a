import ValkeyOperator.Cluster.Members

/-! Scale-in (`perconavalkeycluster/scalein.go`).

Surplus replicas go first, chosen by their node-index label alone. With none
left, shards beyond the wanted count are drained as long as a scraped primary
of theirs owns slots, and their nodes are deleted once no such primary is seen.
Neither choice looks at the engine of the node it deletes. -/

namespace ValkeyOperator.Cluster
open Text Valkey Api

variable {state : ClusterState} {want : Int} {nodes : List ValkeyNode}
  {cluster : PerconaValkeyCluster} {S' : Sorter NodeState} {S : Sorter ValkeyNode}
  {target : ValkeyNode}

/-! ## Surplus replicas -/

/-- The nodes of surviving shards whose index is beyond the wanted replicas. -/
def surplusReplicas (cluster : PerconaValkeyCluster) (nodes : List ValkeyNode) : List ValkeyNode :=
  nodes.filter fun n =>
    match n.shardLabel, n.nodeLabel with
    | some shard, some idx =>
      decide (shard < cluster.spec.shards.toInt) && decide (idx ≥ 1 + cluster.spec.replicas.toInt)
    | _, _ => false

def byNodeIndexDesc (a b : ValkeyNode) : Int := nodeIndexOf b - nodeIndexOf a

/-- The surplus replica deleted in this pass. -/
def deleteExcessReplicas (S : Sorter ValkeyNode) (cluster : PerconaValkeyCluster)
    (nodes : List ValkeyNode) : Option ValkeyNode :=
  (S.sort byNodeIndexDesc (surplusReplicas cluster nodes)).head?

/-! ## Removed shards -/

/-- The scraped primaries of removed shards that own slots. -/
def drainingShardPrimaries (S : Sorter NodeState) (state : ClusterState)
    (positions : GoMap Str NodePosition) (wantShards : Int) : List NodeState :=
  sortByAddr S (state.shards.filterMap fun shard =>
    match shard.primary with
    | none => none
    | some p =>
      if p.numSlots = 0 then none
      else
        match positions.lookup (hostFromAddr p.addr) with
        | none => none
        | some pos => if pos.shard < wantShards then none else some p)

/-- The nodes of removed shards. -/
def removedShardNodes (wantShards : Int) (nodes : List ValkeyNode) : List ValkeyNode :=
  nodes.filter fun n =>
    match n.shardLabel with
    | some shard => decide (wantShards ≤ shard)
    | none => false

def byShardThenNodeDesc (a b : ValkeyNode) : Int :=
  if shardIndexOf a - shardIndexOf b ≠ 0 then shardIndexOf a - shardIndexOf b
  else nodeIndexOf b - nodeIndexOf a

def excessShardNodes (S : Sorter ValkeyNode) (nodes : List ValkeyNode) (wantShards : Int) :
    List ValkeyNode :=
  S.sort byShardThenNodeDesc (removedShardNodes wantShards nodes)

/-- The scraped primaries that may take over a removed shard's slots. -/
def remainingPrimaries (state : ClusterState) (positions : GoMap Str NodePosition)
    (wantShards : Int) : List NodeState :=
  state.shards.filterMap fun shard =>
    match shard.primary with
    | none => none
    | some p =>
      match positions.lookup (hostFromAddr p.addr) with
      | some pos => if wantShards ≤ pos.shard then none else some p
      | none => some p

/-- The removed-shard node deleted in this pass, if no draining shard is seen to
own slots. -/
def deleteDrainedShardNodes (S : Sorter ValkeyNode) (S' : Sorter NodeState)
    (cluster : PerconaValkeyCluster) (state : ClusterState) (nodes : List ValkeyNode) :
    Option ValkeyNode :=
  match excessShardNodes S nodes cluster.spec.shards.toInt with
  | [] => none
  | target :: _ =>
    if (drainingShardPrimaries S' state (positionsByIP nodes) cluster.spec.shards.toInt).length > 0
    then none
    else some target

/-- What one call of the scale-in phase sets out to do. -/
inductive ScaleInEffect where
  | deleteReplica (n : ValkeyNode)
  | deleteDrained (n : ValkeyNode)
  | migrate (move : Move)
  | nothing
deriving DecidableEq

def drainShard (S' : Sorter NodeState) (state : ClusterState) (nodes : List ValkeyNode)
    (src : NodeState) (wantShards : Int) : ScaleInEffect :=
  match planDrainMove S' src (remainingPrimaries state (positionsByIP nodes) wantShards)
      batchSize with
  | none => .nothing
  | some move => .migrate move

def handleScaleIn (S : Sorter ValkeyNode) (S' : Sorter NodeState)
    (cluster : PerconaValkeyCluster) (state : ClusterState) (nodes : List ValkeyNode) :
    ScaleInEffect :=
  match deleteExcessReplicas S cluster nodes with
  | some n => .deleteReplica n
  | none =>
    match drainingShardPrimaries S' state (positionsByIP nodes) cluster.spec.shards.toInt with
    | src :: _ => drainShard S' state nodes src cluster.spec.shards.toInt
    | [] =>
      match deleteDrainedShardNodes S S' cluster state nodes with
      | some n => .deleteDrained n
      | none => .nothing

/-- The scale-in of one pass over the members: without any scraped engine the
pass ends before it. -/
def scaleInPass (S : Sorter ValkeyNode) (S' : Sorter NodeState) (cluster : PerconaValkeyCluster)
    (members : List Member) : ScaleInEffect :=
  match getValkeyClusterState members with
  | none => .nothing
  | some state => handleScaleIn S S' cluster state (nodesOf members)

/-! ## What a surplus-replica deletion may hit -/

theorem compares_byNodeIndexDesc : Compares byNodeIndexDesc := by
  constructor <;> intros <;> unfold byNodeIndexDesc at * <;> omega

theorem drainShard_ne_deleteReplica {src : NodeState} {n : ValkeyNode} :
    drainShard S' state nodes src want ≠ .deleteReplica n ∧
      drainShard S' state nodes src want ≠ .deleteDrained n := by
  unfold drainShard
  split <;> simp

theorem handleScaleIn_deleteReplica :
    handleScaleIn S S' cluster state nodes = .deleteReplica target ↔
      deleteExcessReplicas S cluster nodes = some target := by
  unfold handleScaleIn
  cases deleteExcessReplicas S cluster nodes with
  | some n => simp
  | none =>
    dsimp only
    split
    · simp [drainShard_ne_deleteReplica.1]
    · split <;> simp

/-- A surplus replica is deleted without regard to its engine: no deleted one
owns slots exactly when none of those with the highest node index does. -/
theorem handleScaleIn_replica_slotless_iff (S' : Sorter NodeState)
    (cluster : PerconaValkeyCluster) (state : ClusterState) (members : List Member) :
    (∀ S target, handleScaleIn S S' cluster state (nodesOf members) = .deleteReplica target →
      ∀ m ∈ members, m.node = target → ¬ m.Owns) ↔
    ∀ m ∈ members, m.node ∈ surplusReplicas cluster (nodesOf members) →
      (∀ n ∈ surplusReplicas cluster (nodesOf members), nodeIndexOf n ≤ nodeIndexOf m.node) →
      ¬ m.Owns := by
  simp only [handleScaleIn_deleteReplica, deleteExcessReplicas]
  rw [Sorter.forall_head_iff compares_byNodeIndexDesc]
  constructor
  · intro h m hm hsurplus hmax
    refine h m.node hsurplus (fun n hn => ?_) m hm rfl
    have := hmax n hn
    unfold byNodeIndexDesc
    omega
  · intro h target htarget hmin m hm hnode
    subst hnode
    refine h m hm htarget fun n hn => ?_
    have := hmin n hn
    unfold byNodeIndexDesc at this
    omega

/-- A shard whose index-1 node was promoted in a failover: the index-0 node
replicates it. -/
def failedOver : List Member :=
  [{ node := nodeAt "prod" 0 0 "10.0.0.1"
     engine := { id := "a1", shardID := "s0", role := .replica
                 primaryID := "b2", linkUp := true, knownNodes := 2 } },
   { node := nodeAt "prod" 0 1 "10.0.0.2"
     engine := { id := "b2", shardID := "s0", role := .primary
                 slots := [⟨0, 16383⟩], knownNodes := 2 } }]

/-- With all nodes scraped, dropping the replicas deletes the promoted primary
and its 16384 slots. -/
theorem scaleInPass_deletes_promoted_replica :
    (∀ m ∈ failedOver, m.scraped.isSome) ∧
    ∃ target, scaleInPass .insertion .insertion
        { name := "prod", spec := { shards := 1, replicas := 0 } } failedOver =
          .deleteReplica target ∧
      ∃ m ∈ failedOver, m.node = target ∧ m.Owns ∧ m.engine.numSlots = 16384 :=
  ⟨by decide, nodeAt "prod" 0 1 "10.0.0.2", by decide, by decide⟩

/-! ## What a removed-shard deletion may hit -/

theorem compares_byShardThenNodeDesc : Compares byShardThenNodeDesc :=
  (Compares.ofKey shardIndexOf).andThen compares_byNodeIndexDesc

theorem mem_removedShardNodes {n : ValkeyNode} :
    n ∈ removedShardNodes want nodes ↔ n ∈ nodes ∧ ∃ k, n.shardLabel = some k ∧ want ≤ k := by
  unfold removedShardNodes
  rw [List.mem_filter]
  cases n.shardLabel <;> simp

theorem handleScaleIn_deleteDrained :
    handleScaleIn S S' cluster state nodes = .deleteDrained target ↔
      deleteExcessReplicas S cluster nodes = none ∧
      drainingShardPrimaries S' state (positionsByIP nodes) cluster.spec.shards.toInt = [] ∧
      (excessShardNodes S nodes cluster.spec.shards.toInt).head? = some target := by
  unfold handleScaleIn
  cases deleteExcessReplicas S cluster nodes with
  | some n => simp
  | none =>
    cases hd : drainingShardPrimaries S' state (positionsByIP nodes) cluster.spec.shards.toInt with
    | cons src rest => simp [drainShard_ne_deleteReplica.2]
    | nil =>
      unfold deleteDrainedShardNodes
      rw [hd]
      cases excessShardNodes S nodes cluster.spec.shards.toInt <;> simp

/-- A scraped primary that owns slots sits at the address of a node labelled
with a removed shard. -/
def DrainVisible (state : ClusterState) (positions : GoMap Str NodePosition)
    (wantShards : Int) : Prop :=
  ∃ shard ∈ state.shards, ∃ p, shard.primary = some p ∧ p.numSlots ≠ 0 ∧
    ∃ pos, positions.lookup (hostFromAddr p.addr) = some pos ∧ wantShards ≤ pos.shard

theorem drainingShardPrimaries_eq_nil {positions : GoMap Str NodePosition} :
    drainingShardPrimaries S' state positions want = [] ↔ ¬ DrainVisible state positions want := by
  unfold drainingShardPrimaries sortByAddr DrainVisible
  rw [Sorter.sort_eq_nil, List.filterMap_eq_nil_iff]
  push Not
  refine forall₂_congr fun shard _ => ?_
  cases hp : shard.primary with
  | none => simp
  | some p =>
    by_cases hslots : p.numSlots = 0
    · simp [hslots]
    · cases hpos : positions.lookup (hostFromAddr p.addr) <;> simp [hslots, hpos]

theorem deleteExcessReplicas_eq_none :
    deleteExcessReplicas S cluster nodes = none ↔ surplusReplicas cluster nodes = [] := by
  rw [deleteExcessReplicas, List.head?_eq_none_iff, Sorter.sort_eq_nil]

/-- The deleted node belongs to the lowest of the removed shards. -/
theorem excessShardNodes_head (h : (excessShardNodes S nodes want).head? = some target) :
    ∃ k, target.shardLabel = some k ∧ want ≤ k ∧
      ∀ n ∈ nodes, ∀ j, n.shardLabel = some j → want ≤ j → k ≤ j := by
  have hmem := S.mem_sort.mp (List.mem_of_mem_head? h)
  obtain ⟨-, k, hk, hwant⟩ := mem_removedShardNodes.mp hmem
  refine ⟨k, hk, hwant, fun n hn j hj hwant' => ?_⟩
  have hle := S.head_le compares_byShardThenNodeDesc h n
    (mem_removedShardNodes.mpr ⟨hn, j, hj, hwant'⟩)
  simp only [byShardThenNodeDesc, shardIndexOf, hk, hj, Option.getD_some] at hle
  split at hle <;> omega

/-- Engines of the lowest removed shard own nothing. -/
def LowestRemovedSlotless (want : Int) (members : List Member) : Prop :=
  ∀ m ∈ members, m.Owns → ∀ k, m.node.shardLabel = some k → want ≤ k →
    ∃ n ∈ nodesOf members, ∃ j, n.shardLabel = some j ∧ want ≤ j ∧ j < k

theorem excessShardNodes_slotless_iff (S : Sorter ValkeyNode) (want : Int)
    (members : List Member) :
    (∀ target, (excessShardNodes S (nodesOf members) want).head? = some target →
      ∀ m ∈ members, m.node.shardLabel = target.shardLabel → ¬ m.Owns) ↔
    LowestRemovedSlotless want members := by
  constructor
  · intro h m hm howns k hk hwant
    have hin : m.node ∈ nodesOf members := List.mem_map_of_mem hm
    -- the removed nodes include the owner's, so something is chosen
    cases hx : (excessShardNodes S (nodesOf members) want).head? with
    | none =>
      rw [List.head?_eq_none_iff, excessShardNodes, Sorter.sort_eq_nil] at hx
      have := mem_removedShardNodes.mpr ⟨hin, k, hk, hwant⟩
      rw [hx] at this
      cases this
    | some target =>
      obtain ⟨j, hj, hwant', hmin⟩ := excessShardNodes_head hx
      have hjk := hmin m.node hin k hk hwant
      rcases hjk.lt_or_eq with hlt | rfl
      · have htarget := S.mem_sort.mp (List.mem_of_mem_head? hx)
        exact ⟨target, (mem_removedShardNodes.mp htarget).1, j, hj, hwant', hlt⟩
      · exact absurd howns (h target hx m hm (hk.trans hj.symm))
  · intro h target hx m hm hshard howns
    obtain ⟨k, hk, hwant, hmin⟩ := excessShardNodes_head hx
    obtain ⟨n, hn, j, hj, hwant', hlt⟩ := h m hm howns k (hshard.trans hk) hwant
    have := hmin n hn j hj hwant'
    omega

/-- Absence of evidence counts as an empty shard: a removed shard loses a node
only while none of its engines owns slots exactly when surplus replicas are still
to go, or an owning primary of a removed shard is among the scraped ones, or the
lowest removed shard is empty indeed. -/
theorem scaleInPass_drained_slotless_iff (S : Sorter ValkeyNode) (S' : Sorter NodeState)
    (cluster : PerconaValkeyCluster) (members : List Member) :
    (∀ target, scaleInPass S S' cluster members = .deleteDrained target →
      ∀ m ∈ members, m.node.shardLabel = target.shardLabel → ¬ m.Owns) ↔
    ∀ state, getValkeyClusterState members = some state →
      surplusReplicas cluster (nodesOf members) ≠ [] ∨
      DrainVisible state (positionsByIP (nodesOf members)) cluster.spec.shards.toInt ∨
      LowestRemovedSlotless cluster.spec.shards.toInt members := by
  rw [← excessShardNodes_slotless_iff S]
  unfold scaleInPass
  cases getValkeyClusterState members with
  | none => simp
  | some state =>
    simp only [Option.some.injEq, forall_eq', handleScaleIn_deleteDrained,
      deleteExcessReplicas_eq_none, drainingShardPrimaries_eq_nil]
    constructor
    · intro h
      by_contra hc
      push Not at hc
      obtain ⟨hsurplus, hvisible, target, hx, m, hm, hshard, howns⟩ := hc
      exact h target ⟨hsurplus, hvisible, hx⟩ m hm hshard howns
    · intro h target hchosen
      obtain ⟨hs, hv, hx⟩ := hchosen
      rcases h with hsurplus | hvisible | hempty
      · exact absurd hs hsurplus
      · exact absurd hvisible hv
      · exact hempty target hx

/-- Two shards of one node each; the second one's engine does not answer and is
flagged failed by the first. -/
def silentPrimary : List Member :=
  [{ node := nodeAt "prod" 0 0 "10.0.0.1"
     engine := { id := "a1", shardID := "s0", role := .primary
                 slots := [⟨0, 8191⟩], knownNodes := 2
                 peers := [⟨"b2", ⟨"b2", [flagMaster, flagFail], noPrimary⟩⟩].toAList } },
   { node := nodeAt "prod" 1 0 "10.0.0.2"
     engine := { id := "b2", shardID := "s1", role := .primary
                 slots := [⟨8192, 16383⟩], knownNodes := 2 }
     answers := false }]

/-- Scaling in to one shard deletes the silent primary while it owns half of the
slots. -/
theorem scaleInPass_deletes_silent_primary :
    ∃ target, scaleInPass .insertion .insertion
        { name := "prod",
          spec := { shards := 1, replicas := 0, persistence := some { size := ⟨"1Gi", 2 ^ 30⟩ } } }
        silentPrimary = .deleteDrained target ∧
      ∃ m ∈ silentPrimary, m.node.shardLabel = target.shardLabel ∧ m.Owns :=
  ⟨nodeAt "prod" 1 0 "10.0.0.2", by decide, by decide⟩

end ValkeyOperator.Cluster

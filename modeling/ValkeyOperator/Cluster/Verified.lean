import ValkeyOperator.Cluster.Status
import ValkeyOperator.Valkey.Grouping

/-! When a cluster is marked Ready (`perconavalkeycluster/verify.go`).

Slots and replica links are checked for every scraped node. The shards are only
counted: enough of them must own slots, and enough must be complete. -/

namespace ValkeyOperator.Cluster
open Text Valkey Api

/-- Enough nodes, and all replica links up. -/
def isComplete (wantPerShard : Int) (shard : ShardState) : Bool :=
  decide (wantPerShard ≤ (shard.nodes.length : Int)) &&
    shard.nodes.all fun n => !(n.isReplica && !n.linkUp)

/-- Ready is what the checks say, whether or not the status can be written. -/
theorem verifyAndMarkReady_ready (o : ObjectMeta) (fault : Option Fault) (crVersion : Str)
    (cluster : PerconaValkeyCluster) (state : ClusterState) (b : Board) :
    (verifyAndMarkReady o fault crVersion cluster state b).mem.conditionTrue .ready = true ↔
      unverified cluster state = none := by
  unfold verifyAndMarkReady
  dsimp only
  split
  · rename_i hchecks
    unfold notReady
    rw [Board.writeStatus_mem]
    simp [Board.set, hchecks]
  · rename_i hchecks
    rw [Board.writeStatus_mem, Status.conditionTrue_applyDerivedState]
    simp [Board.set, hchecks, Status.conditionTrue, Status.setCondition, Condition.isTrue_set]

theorem unverified_eq_none_iff {cluster : PerconaValkeyCluster} {state : ClusterState} :
    unverified cluster state = none ↔
      cluster.spec.shards.toInt ≤ (slotOwningShards state).length ∧
      state.getUnassignedSlots = [] ∧
      cluster.spec.shards.toInt ≤ countReadyShards state (1 + cluster.spec.replicas.toInt) ∧
      state.isReplicationInSync = true := by
  unfold unverified
  split
  · simp
    omega
  · split
    · simp_all
    · split
      · simp_all
      · split <;> simp_all

section Scraped

variable {nodes : List NodeState}

/-- Full coverage comes from scraped primaries. -/
theorem owner_of_full (h : ∀ n ∈ nodes, Ordered n.slots)
    (hfull : (newClusterState nodes).getUnassignedSlots = []) {slot : Int} (hlow : 0 ≤ slot)
    (hhigh : slot ≤ maxSlot) : ∃ p ∈ nodes, p.isPrimary = true ∧ Covers p.slots slot := by
  obtain ⟨-, -, hcovers⟩ := ClusterState.getUnassignedSlots_spec (newClusterState_ordered h)
  refine owner_of_shards (by_contra fun hnot => ?_)
  have hfree := (hcovers slot).mpr ⟨covers_singleton.mpr ⟨hlow, hhigh⟩, hnot⟩
  rw [hfull] at hfree
  obtain ⟨r, hr, -⟩ := hfree
  cases hr

/-- Every scraped replica belongs to a shard, so its link is checked. -/
theorem linkUp_of_inSync (h : (newClusterState nodes).isReplicationInSync = true) {n : NodeState}
    (hn : n ∈ nodes) (hreplica : n.isReplica = true) : n.linkUp = true := by
  rw [NodeState.isReplica_eq_not_isPrimary, Bool.not_eq_true'] at hreplica
  have hpending : n.isPending = false := by simp [NodeState.isPending, hreplica]
  have hshard := List.all_eq_true.mp h (shardOf nodes n.shardID)
    (mem_newClusterState_shards.mpr ⟨n, hn, hpending, rfl⟩)
  rw [shardOf_nodes] at hshard
  have hlink := List.all_eq_true.mp hshard n (mem_shardNodes.mpr ⟨hn, hpending, rfl⟩)
  rw [NodeState.isReplica_eq_not_isPrimary, hreplica] at hlink
  simpa using hlink

/-- The shards counted as ready are the complete ones among those that own slots. -/
theorem countReadyShards_eq (h : ∀ n ∈ nodes, Ordered n.slots) (wantPerShard : Int) :
    countReadyShards (newClusterState nodes) wantPerShard =
      ((slotOwningShards (newClusterState nodes)).filter (isComplete wantPerShard)).length := by
  unfold countReadyShards slotOwningShards
  rw [List.filter_filter]
  congr 2
  refine List.filter_congr fun s hs => ?_
  have hnonneg : 0 ≤ s.numSlots := by
    have hordered : Ordered s.slots := fun r hr =>
      newClusterState_ordered h r (List.mem_flatMap.mpr ⟨s, hs, hr⟩)
    unfold ShardState.numSlots
    rw [← length_expand hordered]
    exact Int.natCast_nonneg _
  have howns : decide (s.numSlots ≠ 0) = decide (s.numSlots > 0) :=
    decide_eq_decide.mpr (by omega)
  unfold isComplete
  rw [howns, Bool.and_assoc, Bool.and_comm]

end Scraped

/-- What a Ready cluster is documented to be. -/
structure AsDocumented (cluster : PerconaValkeyCluster) (nodes : List NodeState) : Prop where
  slots : ∀ slot, 0 ≤ slot → slot ≤ maxSlot → ∃ p ∈ nodes, p.isPrimary = true ∧ Covers p.slots slot
  shards : ((slotOwningShards (newClusterState nodes)).length : Int) = cluster.spec.shards.toInt
  complete : ∀ s ∈ slotOwningShards (newClusterState nodes),
    1 + cluster.spec.replicas.toInt ≤ (s.nodes.length : Int)
  links : ∀ n ∈ nodes, n.isReplica = true → n.linkUp = true

/-- With no more shards than asked for, the counts leave no room: every slot-owning
shard is complete. -/
theorem asDocumented_of_verified {cluster : PerconaValkeyCluster} {nodes : List NodeState}
    (hordered : ∀ n ∈ nodes, Ordered n.slots)
    (hverified : unverified cluster (newClusterState nodes) = none)
    (hextra : ((slotOwningShards (newClusterState nodes)).length : Int) ≤
      cluster.spec.shards.toInt) : AsDocumented cluster nodes := by
  obtain ⟨henough, hfull, hready, hlinks⟩ := unverified_eq_none_iff.mp hverified
  rw [countReadyShards_eq hordered] at hready
  have hall : ∀ s ∈ slotOwningShards (newClusterState nodes),
      isComplete (1 + cluster.spec.replicas.toInt) s = true := by
    have hle := List.length_filter_le (isComplete (1 + cluster.spec.replicas.toInt))
      (slotOwningShards (newClusterState nodes))
    exact List.length_filter_eq_length_iff.mp (by omega)
  refine ⟨fun slot hlow hhigh => owner_of_full hordered hfull hlow hhigh, by omega, ?_, ?_⟩
  · intro s hs
    have hcomplete := hall s hs
    unfold isComplete at hcomplete
    rw [Bool.and_eq_true, decide_eq_true_eq] at hcomplete
    exact hcomplete.1
  · exact fun n hn hreplica => linkUp_of_inSync hlinks hn hreplica

/-- Marking Ready means what is documented exactly when at most `spec.shards` shards
own slots, or one of the other checks fails. -/
theorem ready_asDocumented_iff (o : ObjectMeta) (fault : Option Fault) (crVersion : Str)
    (cluster : PerconaValkeyCluster) (texts : List NodeReplies) (b : Board) :
    let nodes := texts.map NodeReplies.state
    let state := newClusterState nodes
    ((verifyAndMarkReady o fault crVersion cluster state b).mem.conditionTrue .ready = true →
      AsDocumented cluster nodes) ↔
    (((slotOwningShards state).length : Int) ≤ cluster.spec.shards.toInt ∨
      state.getUnassignedSlots ≠ [] ∨
      countReadyShards state (1 + cluster.spec.replicas.toInt) < cluster.spec.shards.toInt ∨
      state.isReplicationInSync = false) := by
  intro nodes state
  have hordered : ∀ n ∈ nodes, Ordered n.slots := by
    intro n hn
    obtain ⟨t, -, rfl⟩ := List.mem_map.mp hn
    exact t.state_ordered
  rw [verifyAndMarkReady_ready]
  constructor
  · intro h
    by_contra hnot
    simp only [not_or, not_le, not_not, not_lt, Bool.not_eq_false] at hnot
    obtain ⟨hextra, hfull, hready, hlinks⟩ := hnot
    have hshards : ((slotOwningShards state).length : Int) = cluster.spec.shards.toInt :=
      (h (unverified_eq_none_iff.mpr ⟨by omega, hfull, hready, hlinks⟩)).shards
    omega
  · intro h hverified
    obtain ⟨-, hfull, hready, hlinks⟩ := unverified_eq_none_iff.mp hverified
    rcases h with h | h | h | h
    · exact asDocumented_of_verified hordered hverified h
    · exact absurd hfull h
    · omega
    · rw [hlinks] at h
      cases h

/-- Two primaries that share the slots. -/
def twoShards : List NodeReplies :=
  let table (me other : Str) := "a1 10.0.0.1:6379@16379 " ++ me ++
    "master - 0 0 1 connected 0-8191\n" ++ "b2 10.0.0.2:6379@16379 " ++ other ++
    "master - 0 0 2 connected 8192-16383\n"
  [⟨"a1", "s1", "10.0.0.1:6379", "role:master\r\n",
      "cluster_known_nodes:2\r\n", table "myself," []⟩,
   ⟨"b2", "s2", "10.0.0.2:6379", "role:master\r\n",
      "cluster_known_nodes:2\r\n", table [] "myself,"⟩]

/-- A cluster of one shard is marked Ready while two shards own slots. -/
theorem ready_with_extra_shard :
    let cluster : PerconaValkeyCluster := { name := "prod", spec := { shards := 1 } }
    let nodes := twoShards.map NodeReplies.state
    (verifyAndMarkReady ⟨1, false⟩ none [] cluster (newClusterState nodes)
      ⟨{}, {}⟩).mem.conditionTrue .ready = true ∧ ¬ AsDocumented cluster nodes := by
  intro cluster nodes
  have hshards : (slotOwningShards (newClusterState nodes)).length = 2 := by decide +kernel
  refine ⟨?_, fun h => ?_⟩
  · rw [verifyAndMarkReady_ready]
    decide +kernel
  · have := h.shards
    rw [hshards] at this
    cases this

end ValkeyOperator.Cluster

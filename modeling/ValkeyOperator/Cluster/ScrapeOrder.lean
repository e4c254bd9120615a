import Mathlib.Data.List.Find
import ValkeyOperator.Cluster.ScaleIn
import ValkeyOperator.Valkey.Grouping

/-! Planning and the order in which the nodes are scraped.

Grouping depends on the order of the table: shards come in the order of their first
nodes, and a shard has its nodes in the order of the table. The primary of a shard does
not, as long as IDs are distinct and no shard has two slot-owning primaries. The planners
read the primaries only and sort them by address. -/

namespace ValkeyOperator.Cluster
open Text Valkey Api

/-- Addresses and IDs tell the nodes apart, and a shard has one slot-owning primary at
most. -/
structure Separate (nodes : List NodeState) : Prop where
  addrs : (nodes.map (·.addr)).Nodup
  ids : (nodes.map (·.id)).Nodup
  owners : OneOwner nodes

namespace Separate

variable {nodes nodes' : List NodeState}

theorem owner_unique (h : Separate nodes) {p q : NodeState} (hp : p ∈ nodes) (hq : q ∈ nodes)
    (hpowns : p.ownsSlots = true) (hqowns : q.ownsSlots = true) (hshard : p.shardID = q.shardID) :
    p = q :=
  List.inj_on_of_nodup_map h.owners (List.mem_filter.mpr ⟨hp, hpowns⟩)
    (List.mem_filter.mpr ⟨hq, hqowns⟩) hshard

/-! ## The shards -/

theorem lastPrimary_perm (h : Separate nodes) (hperm : nodes.Perm nodes') (id : Str) :
    lastPrimary (shardNodes nodes id) = lastPrimary (shardNodes nodes' id) := by
  rw [lastPrimary_shardNodes, lastPrimary_shardNodes]
  have hreverse : nodes.reverse.Perm nodes'.reverse :=
    (List.reverse_perm nodes).trans (hperm.trans (List.reverse_perm nodes').symm)
  refine List.find?_eq_find?_of_perm hreverse fun p hp q hq => ?_
  obtain ⟨hp, hpowns⟩ := hp
  obtain ⟨hq, hqowns⟩ := hq
  rw [Bool.and_eq_true, decide_eq_true_eq] at hpowns hqowns
  exact h.owner_unique (List.mem_reverse.mp hp) (List.mem_reverse.mp hq) hpowns.1 hqowns.1
    (hpowns.2.trans hqowns.2.symm)

theorem primary_perm (h : Separate nodes) (hperm : nodes.Perm nodes') (id : Str) :
    (shardOf nodes id).primary = (shardOf nodes' id).primary := by
  unfold ShardState.primary
  rw [shardOf_eq, shardOf_eq, h.lastPrimary_perm hperm]
  refine List.find?_eq_find?_of_perm (hperm.filter _) fun p hp q hq => ?_
  obtain ⟨hp, hpid⟩ := hp
  obtain ⟨hq, hqid⟩ := hq
  rw [beq_iff_eq] at hpid hqid
  exact List.inj_on_of_nodup_map h.ids (mem_shardNodes.mp hp).1 (mem_shardNodes.mp hq).1
    (hpid.trans hqid.symm)

theorem filterMap_shards_perm (h : Separate nodes) (hperm : nodes.Perm nodes')
    {f : ShardState → Option NodeState}
    (hf : ∀ s s' : ShardState, s.primary = s'.primary → f s = f s') :
    ((newClusterState nodes).shards.filterMap f).Perm
      ((newClusterState nodes').shards.filterMap f) := by
  obtain ⟨⟨ids, hids, hshards⟩, -⟩ := newClusterState_groups nodes
  obtain ⟨⟨ids', hids', hshards'⟩, -⟩ := newClusterState_groups nodes'
  have hsame : ids.Perm ids' := by
    refine (List.perm_ext_iff_of_nodup hids.nodup hids'.nodup).mpr fun id => ?_
    rw [hids.mem, hids'.mem]
    exact exists_congr fun n => and_congr_left' hperm.mem_iff
  have hread : f ∘ shardOf nodes = f ∘ shardOf nodes' :=
    funext fun id => hf _ _ (h.primary_perm hperm id)
  rw [hshards, hshards', List.filterMap_map, List.filterMap_map, hread]
  exact hsame.filterMap _

theorem mem_of_primary {s : ShardState} {p : NodeState} (hs : s ∈ (newClusterState nodes).shards)
    (hp : s.primary = some p) : p ∈ nodes := by
  obtain ⟨n, -, -, rfl⟩ := mem_newClusterState_shards.mp hs
  have hmem := List.mem_of_find?_eq_some hp
  rw [shardOf_nodes] at hmem
  exact (mem_shardNodes.mp hmem).1

/-! ## Sorting by address -/

theorem sort_eq (h : Separate nodes) (S S' : Sorter NodeState) {ps qs : List NodeState}
    (hperm : ps.Perm qs) (hps : ∀ p ∈ ps, p ∈ nodes) :
    S.sort compareByAddr ps = S'.sort compareByAddr qs := by
  refine S.sort_unique S' (compares_compareStr (·.addr)) hperm fun a ha b hb hab => ?_
  exact List.inj_on_of_nodup_map h.addrs (hps a ha) (hps b hb) (compareStr_eq_zero hab)

theorem effectiveShards_perm (h : Separate nodes) (hperm : nodes.Perm nodes')
    (S S' : Sorter NodeState) :
    effectiveShards S (newClusterState nodes) = effectiveShards S' (newClusterState nodes') := by
  refine h.sort_eq S S' ?_ fun p hp => ?_
  · refine (h.filterMap_shards_perm hperm fun _ _ => id).append ?_
    rw [(newClusterState_groups nodes).2, (newClusterState_groups nodes').2]
    exact (hperm.filter _).filter _
  · rcases List.mem_append.mp hp with hp | hp
    · obtain ⟨s, hs, hp⟩ := List.mem_filterMap.mp hp
      exact mem_of_primary hs hp
    · rw [(newClusterState_groups nodes).2] at hp
      exact List.mem_of_mem_filter (List.mem_of_mem_filter hp)

theorem mem_of_remainingPrimaries {positions : GoMap Str NodePosition} {want : Int} {p : NodeState}
    (hp : p ∈ remainingPrimaries (newClusterState nodes) positions want) : p ∈ nodes := by
  obtain ⟨s, hs, hp⟩ := List.mem_filterMap.mp hp
  refine mem_of_primary hs ?_
  split at hp
  · cases hp
  · rename_i q hq
    split at hp
    · split at hp
      · cases hp
      · exact hq.trans hp
    · exact hq.trans hp

theorem mem_of_drainingShardPrimaries {S : Sorter NodeState} {positions : GoMap Str NodePosition}
    {want : Int} {p : NodeState}
    (hp : p ∈ drainingShardPrimaries S (newClusterState nodes) positions want) : p ∈ nodes := by
  obtain ⟨s, hs, hp⟩ := List.mem_filterMap.mp (S.mem_sort.mp hp)
  refine mem_of_primary hs ?_
  split at hp
  · cases hp
  · rename_i q hq
    split at hp
    · cases hp
    · split at hp
      · cases hp
      · split at hp
        · cases hp
        · exact hq.trans hp

theorem remainingPrimaries_perm (h : Separate nodes) (hperm : nodes.Perm nodes')
    (positions : GoMap Str NodePosition) (want : Int) :
    (remainingPrimaries (newClusterState nodes) positions want).Perm
      (remainingPrimaries (newClusterState nodes') positions want) :=
  h.filterMap_shards_perm hperm fun s s' hs => by simp only [hs]

theorem planDrainMove_perm (h : Separate nodes) (hperm : nodes.Perm nodes')
    (S S' : Sorter NodeState) (src : NodeState) (positions : GoMap Str NodePosition)
    (want batch : Int) :
    planDrainMove S src (remainingPrimaries (newClusterState nodes) positions want) batch =
      planDrainMove S' src (remainingPrimaries (newClusterState nodes') positions want) batch := by
  unfold planDrainMove
  rw [h.sort_eq S S' (h.remainingPrimaries_perm hperm positions want)
    fun p => mem_of_remainingPrimaries]

end Separate

/-! ## The plans -/

/-- The order of the scrape does not show in the plans. -/
theorem plans_of_scrape_order {nodes nodes' : List NodeState} (h : Separate nodes)
    (hperm : nodes.Perm nodes') (S S' : Sorter NodeState) :
    (∀ shards : Int, planRebalanceMove S (newClusterState nodes) shards =
      planRebalanceMove S' (newClusterState nodes') shards) ∧
    ∀ (src : NodeState) (positions : GoMap Str NodePosition) (want batch : Int),
      planDrainMove S src (remainingPrimaries (newClusterState nodes) positions want) batch =
        planDrainMove S' src (remainingPrimaries (newClusterState nodes') positions want) batch := by
  refine ⟨fun shards => ?_, h.planDrainMove_perm hperm S S'⟩
  unfold planRebalanceMove
  rw [h.effectiveShards_perm hperm S S']

/-- A primary with its replica, a smaller one, and one that waits for slots. -/
def scraped : List NodeState := [
  { id := ['a'], shardID := ['1'], addr := "10.0.0.1:6379", role := .primary,
    slots := [⟨0, 9999⟩] },
  { id := ['b'], shardID := ['1'], addr := "10.0.0.2:6379" },
  { id := ['c'], shardID := ['2'], addr := "10.0.0.3:6379", role := .primary,
    slots := [⟨10000, 16383⟩] },
  { id := ['d'], shardID := ['3'], addr := "10.0.0.4:6379", role := .primary }]

/-- Slots move from the first primary to the waiting one, whichever way the nodes were
scraped, and the smaller primary is drained into the first. -/
theorem plans_of_scrape_order_reversed :
    (planRebalanceMove .insertion (newClusterState scraped) 3).map (fun m => (m.srcID, m.dstID)) =
      some (['a'], ['d']) ∧
    planRebalanceMove .insertion (newClusterState scraped) 3 =
      planRebalanceMove .insertion (newClusterState scraped.reverse) 3 ∧
    ∀ src ∈ scraped, src.id = ['c'] →
      (planDrainMove .insertion src (remainingPrimaries (newClusterState scraped) ∅ 1) 100).map
        (·.dstID) = some ['a'] ∧
      planDrainMove .insertion src (remainingPrimaries (newClusterState scraped) ∅ 1) 100 =
        planDrainMove .insertion src
          (remainingPrimaries (newClusterState scraped.reverse) ∅ 1) 100 := by
  have hseparate : Separate scraped := ⟨by decide, by decide, by decide⟩
  have hplans := plans_of_scrape_order hseparate (List.reverse_perm _).symm .insertion .insertion
  refine ⟨by decide +kernel, hplans.1 3, fun src hsrc hid => ⟨?_, hplans.2 src ∅ 1 100⟩⟩
  revert src
  decide +kernel

end ValkeyOperator.Cluster

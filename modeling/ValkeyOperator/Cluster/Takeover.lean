import ValkeyOperator.Cluster.Pipeline
import ValkeyOperator.Valkey.Moves

/-! Taking over for failed primaries (`perconavalkeycluster/recovery.go`,
`pkg/valkey/topology.go`).

The failed primaries are looked for among the shards, and a shard has a primary
only when that node was scraped. -/

namespace ValkeyOperator.Cluster.Recovery
open Text Valkey Api

variable {rs : List NodeReplies} {nodes : List NodeState} {id : Str}

inductive FailoverMode where
  | graceful
  | force
  | takeover
deriving DecidableEq

def FailoverMode.text : FailoverMode → Str
  | .graceful => []
  | .force => "FORCE"
  | .takeover => "TAKEOVER"

def failoverDecision (hasQuorum : Bool) : FailoverMode :=
  if hasQuorum then .force else .takeover

/-- The engines as the wire to them: failovers with the replica they go to. -/
abbrev Failovers := Wire (NodeState × FailoverMode)

/-- The loop over the failed primaries; it reports whether a replica was told to
take over. -/
def promoteEach (state : ClusterState) : List NodeState → Bool → Action Failovers Bool
  | [], acted => pure acted
  | primary :: rest, acted =>
    match state.bestReplicaOf primary.id with
    | none => promoteEach state rest acted
    | some rep =>
      let mode := failoverDecision state.hasFailoverQuorum
      (Wire.send (rep, mode)).mapErr
        (Err.wrap ("CLUSTER FAILOVER " ++ mode.text ++ " on " ++ rep.id)) >>=
      fun _ => promoteEach state rest true

def promoteOrphanedReplicas (cluster : PerconaValkeyCluster) (state : ClusterState) :
    Action Failovers Bool :=
  if cluster.spec.persistence.isSome then pure false
  else if state.hasFailoverQuorum then pure false
  else promoteEach state state.failedPrimaries false

/-! ## The commands of a pass -/

/-- The replicas that are to take over, in the order of the primaries. -/
def heirs (state : ClusterState) (primaries : List NodeState) : List NodeState :=
  primaries.filterMap fun p => state.bestReplicaOf p.id

theorem promoteEach_issues (state : ClusterState) (primaries : List NodeState) (acted : Bool) :
    ∃ acted', Wire.Issues (promoteEach state primaries acted) acted'
      ((heirs state primaries).map (·, failoverDecision state.hasFailoverQuorum)) := by
  unfold heirs
  induction primaries generalizing acted with
  | nil => exact ⟨acted, Wire.Issues.pure acted⟩
  | cons primary rest ih =>
    unfold promoteEach
    cases hbest : state.bestReplicaOf primary.id with
    | none =>
      rw [List.filterMap_cons, hbest]
      exact ih acted
    | some rep =>
      obtain ⟨acted', hrest⟩ := ih true
      rw [List.filterMap_cons, hbest]
      exact ⟨acted', ((Wire.Issues.send _).mapErr _).bind hrest⟩

/-- A pass commands takeovers when persistence is off and the quorum is lost. -/
theorem promoteOrphanedReplicas_issues (cluster : PerconaValkeyCluster) (state : ClusterState) :
    ∃ acted, Wire.Issues (promoteOrphanedReplicas cluster state) acted
      (if cluster.spec.persistence = none ∧ state.hasFailoverQuorum = false then
        (heirs state state.failedPrimaries).map (·, .takeover)
      else []) := by
  unfold promoteOrphanedReplicas
  cases hpersist : cluster.spec.persistence with
  | some spec => exact ⟨false, Wire.Issues.pure false⟩
  | none =>
    cases hquorum : state.hasFailoverQuorum with
    | true => exact ⟨false, Wire.Issues.pure false⟩
    | false =>
      obtain ⟨acted, h⟩ := promoteEach_issues state state.failedPrimaries false
      rw [hquorum] at h
      exact ⟨acted, h⟩

theorem promoteEach_outcome (env : PassInputs) {state : ClusterState}
    (hquorum : state.hasFailoverQuorum = false) (primaries : List NodeState) (acted : Bool)
    (sent : List (NodeState × FailoverMode)) :
    (promoteEach state primaries acted).outcome
        ⟨sent, (heirs state primaries).map fun rep => env.takeover rep.id⟩ =
      match takeOverEach env state primaries acted with
      | (acted, none) => .ok acted
      | (_, some e) => .error e := by
  unfold heirs
  induction primaries generalizing acted sent with
  | nil => rfl
  | cons primary rest ih =>
    unfold promoteEach takeOverEach
    cases hbest : state.bestReplicaOf primary.id with
    | none =>
      rw [List.filterMap_cons, hbest]
      exact ih acted sent
    | some rep =>
      rw [List.filterMap_cons, hbest]
      dsimp only
      rw [hquorum, List.map_cons]
      cases hreply : env.takeover rep.id with
      | none => exact ih true _
      | some e => rfl

/-- The recovery of the pipeline is the outcome of these commands. -/
theorem promoteOrphanedReplicas_outcome (env : PassInputs) (cluster : PerconaValkeyCluster)
    (state : ClusterState) :
    (promoteOrphanedReplicas cluster state).outcome
        ⟨[], (heirs state state.failedPrimaries).map fun rep => env.takeover rep.id⟩ =
      match Cluster.promoteOrphanedReplicas env cluster state with
      | (acted, none) => .ok acted
      | (_, some e) => .error e := by
  unfold promoteOrphanedReplicas Cluster.promoteOrphanedReplicas
  split
  · rfl
  · cases hquorum : state.hasFailoverQuorum with
    | true => rfl
    | false => exact promoteEach_outcome env hquorum _ false []

/-! ## Failure flags in gossip -/

/-- Some scraped node's table flags the ID as failed. -/
def Flagged (nodes : List NodeState) (id : Str) : Prop :=
  ∃ n ∈ nodes, ∃ peer ∈ n.peers.lookup id, flagFail ∈ peer.flags ∨ flagPFailSoft ∈ peer.flags

instance (nodes : List NodeState) (id : Str) : Decidable (Flagged nodes id) :=
  inferInstanceAs (Decidable (∃ n ∈ nodes, ∃ peer ∈ n.peers.lookup id, _ ∨ _))

section Scraped
variable {rs : List NodeReplies}

theorem Flagged.id_ne_nil (h : Flagged (rs.map NodeReplies.state) id) : id ≠ [] := by
  obtain ⟨n, hn, peer, hpeer, -⟩ := h
  obtain ⟨r, -, rfl⟩ := List.mem_map.mp hn
  exact r.id_of_peer hpeer

/-- The fallback to the node's own flags adds nothing: they are in its table. -/
theorem isNodeFailed_iff :
    (newClusterState (rs.map NodeReplies.state)).isNodeFailed id = true ↔
      Flagged (rs.map NodeReplies.state) id := by
  unfold ClusterState.isNodeFailed
  rw [newClusterState_nodes, Bool.or_eq_true, List.any_eq_true]
  constructor
  · rintro (⟨n, hn, h⟩ | h)
    · cases hpeer : n.peers.lookup id with
      | none => simp [hpeer] at h
      | some peer =>
        rw [hpeer] at h
        exact ⟨n, hn, peer, hpeer, by simpa using h⟩
    · cases hself : (newClusterState (rs.map NodeReplies.state)).nodeByID id with
      | none => simp [hself] at h
      | some self =>
        rw [hself] at h
        change self.isFailed = true at h
        unfold ClusterState.nodeByID at hself
        split at hself
        · cases hself
        · rw [newClusterState_nodes] at hself
          have hid : self.id = id := by simpa using List.find?_some hself
          obtain ⟨r, hr, rfl⟩ :=
            List.mem_map.mp (List.mem_reverse.mp (List.mem_of_find?_eq_some hself))
          rw [NodeReplies.state_id] at hid
          rw [NodeState.isFailed, NodeState.hasFlag, NodeState.hasFlag, r.state_flags, hid] at h
          cases hpeer : r.state.peers.lookup id with
          | none => simp [hpeer] at h
          | some peer =>
            rw [hpeer] at h
            exact ⟨r.state, List.mem_map_of_mem hr, peer, hpeer, by simpa using h⟩
  · rintro ⟨n, hn, peer, hpeer, h⟩
    refine .inl ⟨n, hn, ?_⟩
    rw [Option.mem_def.mp hpeer]
    simpa using h

/-! ## The quorum -/

/-- The slot-owning primaries that were scraped and that no table flags. -/
def liveOwners (nodes : List NodeState) : List NodeState :=
  nodes.filter fun n => n.ownsSlots && !decide (Flagged nodes n.id)

theorem mem_liveOwners {n : NodeState} :
    n ∈ liveOwners nodes ↔ n ∈ nodes ∧ n.ownsSlots = true ∧ ¬ Flagged nodes n.id := by
  simp [liveOwners]

/-- The quorum counts this shard. -/
def counts (s : ClusterState) (shard : ShardState) : Bool :=
  match shard.primary with
  | some p => decide (shard.numSlots > 0) && !s.isNodeFailed p.id
  | none => false

def largestSize (nodes : List NodeState) : Int :=
  nodes.foldl (fun size n => max size n.clusterSize) 0

theorem hasFailoverQuorum_eq (s : ClusterState) :
    s.hasFailoverQuorum =
      if s.shards = [] then false
      else if largestSize s.nodes = 0 then false
      else decide (((s.shards.filter (counts s)).length : Int) > (largestSize s.nodes).tdiv 2) :=
  rfl

/-- The shards that the quorum counts are those of the live owners. -/
theorem counts_iff (hone : OneOwner (rs.map NodeReplies.state)) :
    counts (newClusterState (rs.map NodeReplies.state)) (shardOf (rs.map NodeReplies.state) id) =
        true ↔
      ∃ n ∈ liveOwners (rs.map NodeReplies.state), n.shardID = id := by
  unfold counts
  set nodes := rs.map NodeReplies.state with hnodes
  have hslots : (shardOf nodes id).numSlots =
      countSlots (((lastPrimary (shardNodes nodes id)).map (·.slots)).getD []) := by
    rw [ShardState.numSlots, shardOf_eq]
  constructor
  · intro h
    cases hlast : lastPrimary (shardNodes nodes id) with
    | none =>
      rw [hslots, hlast] at h
      split at h
      · simp [countSlots] at h
      · cases h
    | some q =>
      obtain ⟨p, hp, hid⟩ := shardOf_primary_of_last hlast
      rw [hp] at h
      obtain ⟨hmem, hprimary⟩ := mem_of_lastPrimary hlast
      obtain ⟨hq, hpending, hshard⟩ := mem_shardNodes.mp hmem
      refine ⟨q, mem_liveOwners.mpr ⟨hq, ?_, ?_⟩, hshard⟩
      · rw [NodeState.ownsSlots_eq, hprimary, hpending]
        rfl
      · rw [← hid, hnodes, ← isNodeFailed_iff]
        simpa using (Bool.and_eq_true_iff.mp h).2
  · rintro ⟨n, hn, rfl⟩
    obtain ⟨hmem, howns, hflag⟩ := mem_liveOwners.mp hn
    have hlast := hone.lastPrimary_shardNodes hmem howns
    obtain ⟨p, hp, hid⟩ := shardOf_primary_of_last hlast
    rw [hp]
    obtain ⟨r, -, rfl⟩ := List.mem_map.mp hmem
    have hnonneg := numSlots_nonneg r.state_ordered
    have hne : r.state.numSlots ≠ 0 := by
      simpa using (Bool.and_eq_true_iff.mp howns).2
    rw [Bool.and_eq_true, decide_eq_true_eq, Bool.not_eq_true', Bool.eq_false_iff, Ne,
      isNodeFailed_iff, hid, hslots, hlast]
    exact ⟨by change r.state.numSlots > 0; omega, hflag⟩

theorem length_counted (hone : OneOwner (rs.map NodeReplies.state)) :
    ((newClusterState (rs.map NodeReplies.state)).shards.filter
        (counts (newClusterState (rs.map NodeReplies.state)))).length =
      (liveOwners (rs.map NodeReplies.state)).length := by
  obtain ⟨⟨ids, hids, hshards⟩, -⟩ := newClusterState_groups (rs.map NodeReplies.state)
  rw [hshards, List.filter_map, List.length_map]
  refine Eq.trans (List.Perm.length_eq ?_) (List.length_map (·.shardID))
  refine (List.perm_ext_iff_of_nodup (hids.nodup.filter _) ?_).mpr ?_
  · refine hone.sublist (List.Sublist.map _ (List.monotone_filter_right _ fun n h => ?_))
    exact (Bool.and_eq_true_iff.mp h).1
  · intro id
    rw [List.mem_filter, List.mem_map]
    refine ⟨fun h => (counts_iff hone).mp h.2, fun h => ⟨?_, (counts_iff hone).mpr h⟩⟩
    obtain ⟨n, hn, rfl⟩ := h
    obtain ⟨hmem, howns, -⟩ := mem_liveOwners.mp hn
    refine (hids.mem _).mpr ⟨n, hmem, ?_, rfl⟩
    rw [NodeState.ownsSlots_eq, Bool.and_eq_true, Bool.not_eq_true'] at howns
    exact howns.2

end Scraped

theorem largestSize_eq (h : ∃ n ∈ nodes, 0 < n.clusterSize) :
    ∃ largest ∈ nodes, (∀ n ∈ nodes, n.clusterSize ≤ largest.clusterSize) ∧
      largestSize nodes = largest.clusterSize := by
  suffices ∀ (rest : List NodeState) (size : Int),
      (∀ n ∈ rest, n.clusterSize ≤ rest.foldl (fun size n => max size n.clusterSize) size) ∧
      size ≤ rest.foldl (fun size n => max size n.clusterSize) size ∧
      (rest.foldl (fun size n => max size n.clusterSize) size = size ∨
        ∃ n ∈ rest, rest.foldl (fun size n => max size n.clusterSize) size = n.clusterSize) by
    obtain ⟨hbound, -, hzero | ⟨largest, hmem, heq⟩⟩ := this nodes 0
    · obtain ⟨n, hn, hpos⟩ := h
      have := hbound n hn
      omega
    · refine ⟨largest, hmem, fun n hn => ?_, heq⟩
      rw [← heq]
      exact hbound n hn
  intro rest
  induction rest with
  | nil => exact fun size => ⟨by simp, le_refl _, .inl rfl⟩
  | cons r rest ih =>
    intro size
    obtain ⟨hbound, hge, heq⟩ := ih (max size r.clusterSize)
    rw [List.foldl_cons]
    refine ⟨List.forall_mem_cons.mpr ⟨le_trans (le_max_right _ _) hge, hbound⟩,
      le_trans (le_max_left _ _) hge, ?_⟩
    rcases heq with heq | ⟨n, hn, heq⟩
    · rcases le_total r.clusterSize size with hle | hle
      · exact .inl (heq.trans (max_eq_left hle))
      · exact .inr ⟨r, List.mem_cons_self, heq.trans (max_eq_right hle)⟩
    · exact .inr ⟨n, List.mem_cons_of_mem _ hn, heq⟩

/-! ## Who takes over -/

/-- A scraped replica of `id` with the highest offset of them. -/
structure BestOrphan (nodes : List NodeState) (id : Str) (rep : NodeState) : Prop where
  scraped : rep ∈ nodes
  replica : rep.isReplica = true
  names : rep.primaryID = id
  furthest : ∀ n ∈ nodes, n.isReplica = true → n.primaryID = id → n.offset ≤ rep.offset

theorem bestReplicaOf_bestOrphan {rep : NodeState}
    (h : (newClusterState nodes).bestReplicaOf id = some rep) : BestOrphan nodes id rep := by
  unfold ClusterState.bestReplicaOf at h
  rw [newClusterState_nodes] at h
  obtain ⟨hmem, hmax⟩ := ClusterState.highestOffset_eq_some h
  simp only [List.mem_filter, Bool.and_eq_true, beq_iff_eq] at hmem hmax
  exact ⟨hmem.1, hmem.2.2, hmem.2.1, fun n hn hreplica hid => hmax n ⟨hn, hid, hreplica⟩⟩

theorem bestReplicaOf_isSome {n : NodeState} (hn : n ∈ nodes) (hreplica : n.isReplica = true)
    (hid : n.primaryID = id) : ∃ rep, (newClusterState nodes).bestReplicaOf id = some rep := by
  unfold ClusterState.bestReplicaOf
  rw [newClusterState_nodes]
  refine ClusterState.highestOffset_isSome (List.ne_nil_of_mem (a := n) ?_)
  simp [hn, hreplica, hid]

/-- The primary with this ID was scraped as one that owns slots, and as the last
such primary of its shard. -/
def Heads (nodes : List NodeState) (id : Str) : Prop :=
  ∃ p ∈ nodes, p.id = id ∧ lastPrimary (shardNodes nodes p.shardID) = some p

instance (nodes : List NodeState) (id : Str) : Decidable (Heads nodes id) :=
  inferInstanceAs (Decidable (∃ p ∈ nodes, _ ∧ _))

/-- The failed primaries are, by ID, the flagged ones that head a shard. -/
theorem exists_failedPrimary :
    (∃ p ∈ (newClusterState (rs.map NodeReplies.state)).failedPrimaries, p.id = id) ↔
      Flagged (rs.map NodeReplies.state) id ∧ Heads (rs.map NodeReplies.state) id := by
  unfold ClusterState.failedPrimaries
  simp only [List.mem_filterMap]
  constructor
  · rintro ⟨p, ⟨shard, hshard, h⟩, rfl⟩
    obtain ⟨n, -, -, rfl⟩ := mem_newClusterState_shards.mp hshard
    split at h
    · rename_i q hprimary
      split at h
      · rename_i hfailed
        cases h
        have hflag := isNodeFailed_iff.mp hfailed
        obtain ⟨q, hlast, hid⟩ := last_of_shardOf_primary hprimary hflag.id_ne_nil
        obtain ⟨hq, -, hsid⟩ := mem_shardNodes.mp (mem_of_lastPrimary hlast).1
        rw [← hsid] at hlast
        exact ⟨hflag, q, hq, hid, hlast⟩
      · cases h
    · cases h
  · rintro ⟨hflag, q, hq, rfl, hlast⟩
    obtain ⟨p, hprimary, hid⟩ := shardOf_primary_of_last hlast
    obtain ⟨-, hpending, -⟩ := mem_shardNodes.mp (mem_of_lastPrimary hlast).1
    refine ⟨p, ⟨_, mem_newClusterState_shards.mpr ⟨q, hq, hpending, rfl⟩, ?_⟩, hid⟩
    rw [hprimary]
    exact if_pos (isNodeFailed_iff.mpr (hid ▸ hflag))

theorem mem_heirs {rep : NodeState} (h : rep ∈ heirs (newClusterState (rs.map NodeReplies.state))
      (newClusterState (rs.map NodeReplies.state)).failedPrimaries) :
    ∃ id, Flagged (rs.map NodeReplies.state) id ∧ Heads (rs.map NodeReplies.state) id ∧
      BestOrphan (rs.map NodeReplies.state) id rep := by
  obtain ⟨p, hp, hbest⟩ := List.mem_filterMap.mp h
  obtain ⟨hflag, hheads⟩ := exists_failedPrimary.mp ⟨p, hp, rfl⟩
  exact ⟨p.id, hflag, hheads, bestReplicaOf_bestOrphan hbest⟩

theorem failedPrimaries_of_no_shards {state : ClusterState} (h : state.shards = []) :
    state.failedPrimaries = [] := by
  rw [ClusterState.failedPrimaries, h]
  rfl

theorem length_liveOwners_of_lost (hsize : ∃ n ∈ rs.map NodeReplies.state, 0 < n.clusterSize)
    (hone : OneOwner (rs.map NodeReplies.state))
    (hshards : (newClusterState (rs.map NodeReplies.state)).shards ≠ [])
    (hlost : (newClusterState (rs.map NodeReplies.state)).hasFailoverQuorum = false) :
    ∃ largest ∈ rs.map NodeReplies.state,
      (∀ n ∈ rs.map NodeReplies.state, n.clusterSize ≤ largest.clusterSize) ∧
      2 * ((liveOwners (rs.map NodeReplies.state)).length : Int) ≤ largest.clusterSize := by
  obtain ⟨largest, hmem, hmax, hfold⟩ := largestSize_eq hsize
  refine ⟨largest, hmem, hmax, ?_⟩
  rw [hasFailoverQuorum_eq, if_neg hshards, newClusterState_nodes, hfold, length_counted hone]
    at hlost
  obtain ⟨n, hn, hpos⟩ := hsize
  have hle := hmax n hn
  rw [if_neg (by omega), decide_eq_false_iff_not, Int.tdiv_eq_ediv_of_nonneg (by omega)] at hlost
  omega

/-- Takeovers are commanded with persistence off and without a live majority, and
each goes to the best replica of a primary that some table flags as failed. -/
theorem promoteOrphanedReplicas_last_resort (cluster : PerconaValkeyCluster)
    (rs : List NodeReplies) (replies : List (Option Err))
    (hsize : ∃ n ∈ rs.map NodeReplies.state, 0 < n.clusterSize)
    (hone : OneOwner (rs.map NodeReplies.state)) :
    let nodes := rs.map NodeReplies.state
    ∀ c ∈ ((promoteOrphanedReplicas cluster (newClusterState nodes)).after ⟨[], replies⟩).sent,
      c.2 = .takeover ∧ cluster.spec.persistence = none ∧
      (∃ largest ∈ nodes, (∀ n ∈ nodes, n.clusterSize ≤ largest.clusterSize) ∧
        2 * ((liveOwners nodes).length : Int) ≤ largest.clusterSize) ∧
      ∃ id, Flagged nodes id ∧ (∃ p ∈ nodes, p.isPrimary = true ∧ p.id = id) ∧
        BestOrphan nodes id c.1 := by
  intro nodes
  obtain ⟨acted, hissues⟩ := promoteOrphanedReplicas_issues cluster (newClusterState nodes)
  refine hissues.forall_sent_iff.mpr ?_ replies
  intro c hc
  split at hc
  · rename_i hwhen
    obtain ⟨rep, hrep, rfl⟩ := List.mem_map.mp hc
    obtain ⟨id, hflag, ⟨p, hp, hid, hlast⟩, hbest⟩ := mem_heirs hrep
    have hshards : (newClusterState nodes).shards ≠ [] := by
      intro hnil
      rw [failedPrimaries_of_no_shards hnil] at hrep
      cases hrep
    exact ⟨rfl, hwhen.1, length_liveOwners_of_lost hsize hone hshards hwhen.2, id, hflag,
      ⟨p, hp, (mem_of_lastPrimary hlast).2, hid⟩, hbest⟩
  · cases hc

/-- The table of a cluster of two shards with the first primary down; `own` are
the flags of that primary. -/
def downTable (own : String) : Str :=
  "a1 a:1@2 " ++ own.toList ++ " - 0 0 1 up 0-8191\n" ++
  "b2 b:1@2 master - 0 0 2 up 8192-16383\n" ++
  "c3 c:1@2 slave a1 0 0 1 up\n"

def downReplies (id shardID infoRepl own : String) : NodeReplies :=
  ⟨id.toList, shardID.toList, [], infoRepl.toList, "cluster_size:2", downTable own⟩

/-- The replica and the other primary; the first primary does not answer. -/
def survivors : List NodeReplies :=
  [downReplies "b2" "s2" "role:master" "master,fail?",
   downReplies "c3" "s1" "role:slave" "master,fail?"]

def partitioned : List NodeReplies :=
  downReplies "a1" "s1" "role:master" "master" :: survivors

/-- A primary that the operator still reaches and the others do not. -/
theorem promoteOrphanedReplicas_last_resort_partitioned :
    let cluster : PerconaValkeyCluster := { name := "prod", spec := { shards := 2 } }
    let nodes := partitioned.map NodeReplies.state
    ((promoteOrphanedReplicas cluster (newClusterState nodes)).after {}).sent.map
        (fun c => (c.1.id, c.2)) = [("c3".toList, .takeover)] ∧
      ∀ c ∈ ((promoteOrphanedReplicas cluster (newClusterState nodes)).after {}).sent,
        c.2 = .takeover ∧ cluster.spec.persistence = none ∧
        (∃ largest ∈ nodes, (∀ n ∈ nodes, n.clusterSize ≤ largest.clusterSize) ∧
          2 * ((liveOwners nodes).length : Int) ≤ largest.clusterSize) ∧
        ∃ id, Flagged nodes id ∧ (∃ p ∈ nodes, p.isPrimary = true ∧ p.id = id) ∧
          BestOrphan nodes id c.1 := by
  intro cluster nodes
  refine ⟨by decide +kernel, ?_⟩
  exact promoteOrphanedReplicas_last_resort cluster partitioned [] (by decide +kernel)
    (by decide +kernel)

/-- Every primary that some table flags as failed and some scraped replica names
gets a takeover, exactly when each of them was scraped at the head of a shard. -/
theorem promoteOrphanedReplicas_reaches_iff (cluster : PerconaValkeyCluster)
    (rs : List NodeReplies) (hpersist : cluster.spec.persistence = none)
    (hlost : (newClusterState (rs.map NodeReplies.state)).hasFailoverQuorum = false) :
    let nodes := rs.map NodeReplies.state
    (∀ id, Flagged nodes id → (∃ r ∈ nodes, r.isReplica = true ∧ r.primaryID = id) →
      ∃ c ∈ ((promoteOrphanedReplicas cluster (newClusterState nodes)).after {}).sent,
        c.2 = .takeover ∧ c.1 ∈ nodes ∧ c.1.isReplica = true ∧ c.1.primaryID = id) ↔
    ∀ id, Flagged nodes id → (∃ r ∈ nodes, r.isReplica = true ∧ r.primaryID = id) →
      Heads nodes id := by
  intro nodes
  obtain ⟨acted, hissues⟩ := promoteOrphanedReplicas_issues cluster (newClusterState nodes)
  rw [(hissues.all []).after_eq, if_pos ⟨hpersist, hlost⟩]
  refine forall_congr' fun id => forall_congr' fun hflag => forall_congr' fun hnamed => ?_
  constructor
  · rintro ⟨c, hc, -, -, -, rfl⟩
    obtain ⟨rep, hrep, rfl⟩ := List.mem_map.mp hc
    obtain ⟨id, -, hheads, hbest⟩ := mem_heirs hrep
    rw [← hbest.names] at hheads
    exact hheads
  · intro hheads
    obtain ⟨p, hp, rfl⟩ := exists_failedPrimary.mpr ⟨hflag, hheads⟩
    obtain ⟨r, hr, hreplica, hid⟩ := hnamed
    obtain ⟨rep, hrep⟩ := bestReplicaOf_isSome hr hreplica hid
    have hbest := bestReplicaOf_bestOrphan hrep
    refine ⟨(rep, .takeover), List.mem_map.mpr ⟨rep, ?_, rfl⟩, rfl, hbest.scraped, hbest.replica,
      hbest.names⟩
    exact List.mem_filterMap.mpr ⟨p, hp, hrep⟩

/-- A failed primary that still answers the operator is taken over from. -/
theorem promoteOrphanedReplicas_reaches_partitioned :
    let cluster : PerconaValkeyCluster := { name := "prod", spec := { shards := 2 } }
    let nodes := partitioned.map NodeReplies.state
    (∀ id, Flagged nodes id → (∃ r ∈ nodes, r.isReplica = true ∧ r.primaryID = id) →
      ∃ c ∈ ((promoteOrphanedReplicas cluster (newClusterState nodes)).after {}).sent,
        c.2 = .takeover ∧ c.1 ∈ nodes ∧ c.1.isReplica = true ∧ c.1.primaryID = id) := by
  intro cluster nodes
  refine (promoteOrphanedReplicas_reaches_iff cluster partitioned rfl (by decide +kernel)).mpr ?_
  rintro id - ⟨r, hr, hreplica, rfl⟩
  have hall : ∀ r ∈ nodes, r.isReplica = true → Heads nodes r.primaryID := by decide +kernel
  exact hall r hr hreplica

/-- The dead primary was not scraped, so nobody takes over from it. -/
theorem promoteOrphanedReplicas_misses_dead :
    let cluster : PerconaValkeyCluster := { name := "prod", spec := { shards := 2 } }
    let nodes := survivors.map NodeReplies.state
    cluster.spec.persistence = none ∧ (newClusterState nodes).hasFailoverQuorum = false ∧
      Flagged nodes "a1" ∧
      (∃ r ∈ nodes, r.isReplica = true ∧ r.primaryID = "a1") ∧
      ((promoteOrphanedReplicas cluster (newClusterState nodes)).after {}).sent = [] := by
  decide +kernel

end ValkeyOperator.Cluster.Recovery

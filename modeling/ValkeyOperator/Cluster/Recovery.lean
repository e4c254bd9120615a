import ValkeyOperator.Cluster.Members
import Mathlib.Data.List.Dedup

/-! Forgetting stale nodes (`perconavalkeycluster/recovery.go`).

An ID is stale when some scraped node's table lists it and no scraped node with
that ID sits at a ValkeyNode's pod address. A node that exists but could not be
scraped is therefore stale too, unless a backed replica points at it or it is
flagged failed and expected to come back. -/

namespace ValkeyOperator.Cluster
open Text Valkey Api

def liveIPs (nodes : List ValkeyNode) : List Str :=
  (nodes.map fun n => n.status.podIP).filter (· ≠ [])

/-- The IDs of scraped nodes at the address of an existing ValkeyNode. -/
def backingNodeIDs (state : ClusterState) (nodes : List ValkeyNode) : List Str :=
  (state.nodes.filter fun n => n.id ≠ [] && (liveIPs nodes).contains (hostFromAddr n.addr)).map
    (·.id)

/-- A failed node that the cluster is expected to recover by itself. -/
def recoverable (cluster : PerconaValkeyCluster) (state : ClusterState) (id : Str) : Bool :=
  state.isNodeFailed id && (cluster.spec.persistence.isSome || state.hasFailoverQuorum)

def broadcastForget (state : ClusterState) (id : Str) : Action Engines Unit :=
  state.nodes.forM fun n =>
    if n.id = id then pure ()
    else (Wire.send (n, .forget id)).mapErr
      (Err.wrap ("forget " ++ id ++ " on " ++ n.addr))

/-- The loop over the stale IDs; it reports whether one was forgotten. -/
def forgetEach (cluster : PerconaValkeyCluster) (state : ClusterState) :
    List Str → Bool → Action Engines Bool
  | [], acted => pure acted
  | id :: rest, acted =>
    if recoverable cluster state id then forgetEach cluster state rest acted
    else broadcastForget state id >>= fun _ => forgetEach cluster state rest true

def forgetStaleNodes (cluster : PerconaValkeyCluster) (state : ClusterState)
    (nodes : List ValkeyNode) : Action Engines Bool :=
  let stale := state.staleNodeIDs (backingNodeIDs state nodes)
  if stale = [] then pure false else forgetEach cluster state stale false

/-- The forgetting of one pass over the members. -/
def forgetPass (cluster : PerconaValkeyCluster) (members : List Member) : Action Engines Bool :=
  match getValkeyClusterState members with
  | none => pure false
  | some state => forgetStaleNodes cluster state (nodesOf members)

/-! ## The commands of a pass -/

def forgets (state : ClusterState) (id : Str) : List (NodeState × Command) :=
  state.nodes.flatMap fun n => if n.id = id then [] else [(n, .forget id)]

theorem broadcastForget_issues (state : ClusterState) (id : Str) :
    Wire.Issues (broadcastForget state id) () (forgets state id) := by
  refine Wire.Issues.forM fun n _ => ?_
  split
  · exact Wire.Issues.pure ()
  · exact (Wire.Issues.send _).mapErr _

theorem forgetEach_issues (cluster : PerconaValkeyCluster) (state : ClusterState)
    (ids : List Str) (acted : Bool) :
    ∃ acted', Wire.Issues (forgetEach cluster state ids acted) acted'
      ((ids.filter fun id => !recoverable cluster state id).flatMap (forgets state)) := by
  induction ids generalizing acted with
  | nil => exact ⟨acted, Wire.Issues.pure acted⟩
  | cons id rest ih =>
    unfold forgetEach
    split
    · rename_i hrec
      rw [List.filter_cons_of_neg (by simp [hrec])]
      exact ih acted
    · rename_i hrec
      obtain ⟨acted', hrest⟩ := ih true
      rw [List.filter_cons_of_pos (by simp [hrec]), List.flatMap_cons]
      exact ⟨acted', (broadcastForget_issues state id).bind hrest⟩

theorem forgetStaleNodes_issues (cluster : PerconaValkeyCluster) (state : ClusterState)
    (nodes : List ValkeyNode) :
    ∃ acted, Wire.Issues (forgetStaleNodes cluster state nodes) acted
      (((state.staleNodeIDs (backingNodeIDs state nodes)).filter
        fun id => !recoverable cluster state id).flatMap (forgets state)) := by
  unfold forgetStaleNodes
  dsimp only
  split
  · rename_i hnil
    rw [hnil]
    exact ⟨false, Wire.Issues.pure false⟩
  · exact forgetEach_issues cluster state _ false

theorem mem_forgets {state : ClusterState} {id id' : Str} {n : NodeState} :
    (n, Command.forget id') ∈ forgets state id ↔ id' = id ∧ n ∈ state.nodes ∧ n.id ≠ id := by
  unfold forgets
  simp only [List.mem_flatMap]
  constructor
  · intro h
    obtain ⟨n', hn, hc⟩ := h
    split at hc
    · cases hc
    · rename_i hne
      rw [List.mem_singleton, Prod.mk.injEq, Command.forget.injEq] at hc
      obtain ⟨rfl, rfl⟩ := hc
      exact ⟨rfl, hn, hne⟩
  · intro h
    obtain ⟨rfl, hn, hne⟩ := h
    exact ⟨n, hn, by simp [hne]⟩

theorem mem_staleNodeIDs {state : ClusterState} {backing : List Str} {id : Str} :
    id ∈ state.staleNodeIDs backing ↔
      (∃ n ∈ state.nodes, id ∈ n.peers) ∧ id ≠ [] ∧ id ∉ backing ∧
        state.hasReplicaOf id (some backing) = false := by
  unfold ClusterState.staleNodeIDs ClusterState.isStale
  rw [List.mem_insertionSort, List.mem_dedup, List.mem_filter, List.mem_flatMap]
  simp [AList.mem_keys, and_assoc]

theorem mem_backingNodeIDs {members : List Member} {state : ClusterState} {id : Str}
    (hstate : getValkeyClusterState members = some state) :
    id ∈ backingNodeIDs state (nodesOf members) ↔ id ≠ [] ∧ ∃ n ∈ state.nodes, n.id = id := by
  unfold backingNodeIDs
  simp only [List.mem_map, List.mem_filter, Bool.and_eq_true, decide_eq_true_eq,
    List.contains_iff_mem]
  constructor
  · intro h
    obtain ⟨n, ⟨hn, hne, -⟩, rfl⟩ := h
    exact ⟨hne, n, hn, rfl⟩
  · intro h
    obtain ⟨hne, n, hn, rfl⟩ := h
    refine ⟨n, ⟨hn, hne, ?_⟩, rfl⟩
    rw [getValkeyClusterState_nodes hstate] at hn
    obtain ⟨m, hm, -, hip, hhost⟩ := mem_scraped hn
    rw [hhost]
    refine List.mem_filter.mpr ⟨?_, by simpa using hip⟩
    exact List.mem_map_of_mem (List.mem_map_of_mem hm)

theorem mem_forgetStaleNodes_commands {cluster : PerconaValkeyCluster} {members : List Member}
    {state : ClusterState} {id : Str} (hstate : getValkeyClusterState members = some state) :
    (∃ n, (n, Command.forget id) ∈
      ((state.staleNodeIDs (backingNodeIDs state (nodesOf members))).filter
        fun id => !recoverable cluster state id).flatMap (forgets state)) ↔
    id ≠ [] ∧ (∃ n ∈ state.nodes, id ∈ n.peers) ∧ (∀ n ∈ state.nodes, n.id ≠ id) ∧
      state.hasReplicaOf id (some (backingNodeIDs state (nodesOf members))) = false ∧
      recoverable cluster state id = false := by
  constructor
  · intro h
    obtain ⟨dest, hc⟩ := h
    obtain ⟨id', hid', hc⟩ := List.mem_flatMap.mp hc
    obtain ⟨rfl, -⟩ := mem_forgets.mp hc
    obtain ⟨hstale, hrec⟩ := List.mem_filter.mp hid'
    obtain ⟨hlisted, hne, hbacked, hrep⟩ := mem_staleNodeIDs.mp hstale
    refine ⟨hne, hlisted, fun n hn he => ?_, hrep, by simpa using hrec⟩
    exact hbacked ((mem_backingNodeIDs hstate).mpr ⟨hne, n, hn, he⟩)
  · intro h
    obtain ⟨hne, ⟨n, hn, hlisted⟩, hscraped, hrep, hrec⟩ := h
    have hbacked : id ∉ backingNodeIDs state (nodesOf members) := fun h => by
      obtain ⟨-, n', hn', he⟩ := (mem_backingNodeIDs hstate).mp h
      exact hscraped n' hn' he
    refine ⟨n, List.mem_flatMap.mpr ⟨id, List.mem_filter.mpr ⟨?_, by simp [hrec]⟩, ?_⟩⟩
    · exact mem_staleNodeIDs.mpr ⟨⟨n, hn, hlisted⟩, hne, hbacked, hrep⟩
    · exact mem_forgets.mpr ⟨rfl, hn, hscraped n hn⟩

/-- The engine of an existing node is never forgotten, whatever the engines
answer, exactly when each one some table lists was scraped itself, or is the
primary of a backed replica, or is flagged failed and expected back. -/
theorem forgetPass_spares_existing_iff (cluster : PerconaValkeyCluster) (members : List Member) :
    (∀ replies, ∀ c ∈ ((forgetPass cluster members).after ⟨[], replies⟩).sent,
      ∀ m ∈ members, c.2 ≠ .forget m.engine.id) ↔
    ∀ state, getValkeyClusterState members = some state →
      ∀ m ∈ members, m.engine.id ≠ [] → (∃ n ∈ state.nodes, m.engine.id ∈ n.peers) →
        (∃ n ∈ state.nodes, n.id = m.engine.id) ∨
        state.hasReplicaOf m.engine.id (some (backingNodeIDs state (nodesOf members))) ∨
        (state.isNodeFailed m.engine.id ∧
          (cluster.spec.persistence.isSome ∨ state.hasFailoverQuorum)) := by
  unfold forgetPass
  cases hstate : getValkeyClusterState members with
  | none => simp [Action.after, pure, EStateM.pure]
  | some state =>
    obtain ⟨acted, hissues⟩ := forgetStaleNodes_issues cluster state (nodesOf members)
    simp only [hissues.forall_sent_iff, Option.some.injEq, forall_eq']
    constructor
    · intro h m hm hne hlisted
      by_contra hcon
      push Not at hcon
      obtain ⟨hscraped, hrep, hrec⟩ := hcon
      obtain ⟨dest, hc⟩ := (mem_forgetStaleNodes_commands hstate).mpr
        ⟨hne, hlisted, hscraped, by simpa using hrep, by
          simpa [recoverable] using hrec⟩
      exact h _ hc m hm rfl
    · intro h sent hc m hm hforget
      obtain ⟨dest, c⟩ := sent
      subst hforget
      obtain ⟨hne, hlisted, hscraped, hrep, hrec⟩ :=
        (mem_forgetStaleNodes_commands hstate).mp ⟨dest, hc⟩
      rcases h m hm hne hlisted with ⟨n, hn, he⟩ | hrep' | ⟨hfail, hback⟩
      · exact hscraped n hn he
      · rw [hrep] at hrep'
        cases hrep'
      · have hback' : recoverable cluster state m.engine.id = true := by
          rw [recoverable, hfail, Bool.true_and, Bool.or_eq_true]
          exact hback
        rw [hrec] at hback'
        cases hback'

/-- Two shards of one node each; the operator cannot reach the second engine,
which its peer sees as healthy. -/
def unreachable : List Member :=
  [{ node := nodeAt "prod" 0 0 "10.0.0.1"
     engine := { id := "a1", shardID := "s0", role := .primary
                 slots := [⟨0, 8191⟩], knownNodes := 2, clusterSize := 2
                 peers := [⟨"a1", ⟨"a1", [flagMaster], noPrimary⟩⟩,
                   ⟨"b2", ⟨"b2", [flagMaster], noPrimary⟩⟩].toAList } },
   { node := nodeAt "prod" 1 0 "10.0.0.2"
     engine := { id := "b2", shardID := "s1", role := .primary
                 slots := [⟨8192, 16383⟩], knownNodes := 2 }
     answers := false }]

/-- One missed scrape is enough to have a healthy, existing primary forgotten. -/
theorem forgetPass_forgets_unreachable :
    ∃ m ∈ unreachable, ∃ c ∈ ((forgetPass { name := "prod", spec := { shards := 2 } }
      unreachable).after {}).sent, c.2 = .forget m.engine.id := by
  decide

end ValkeyOperator.Cluster

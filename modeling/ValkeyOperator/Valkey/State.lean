import Mathlib.Data.List.AList
import ValkeyOperator.Valkey.Ranges

/-! The operator's view of a cluster (`pkg/valkey/state.go`, `topology.go`).

Each scraped node carries its own line of the cluster's node table and the whole
table as its gossip view. The nodes are grouped into shards by shard ID; a
primary without slots is set aside as pending. -/

namespace ValkeyOperator.Valkey
open Text

/-- A Go map. -/
abbrev GoMap (κ ν : Type) := AList fun _ : κ => ν

-- Mathlib's instance rewrites a proposition and does not evaluate.
instance {κ ν : Type} [DecidableEq κ] [DecidableEq ν] : DecidableEq (GoMap κ ν) :=
  fun a b => decidable_of_iff (a.entries = b.entries) AList.ext_iff.symm

inductive Role where
  | primary
  | replica
deriving DecidableEq

def flagMaster : Str := "master"
def flagFail : Str := "fail"
def flagPFailSoft : Str := "fail?"
def flagPFail : Str := "pfail"
def noPrimary : Str := "-"

/-- What a node's table says about one node. -/
structure PeerView where
  id : Str
  flags : List Str
  primaryID : Str
deriving DecidableEq

structure NodeState where
  id : Str
  shardID : Str := []
  addr : Str := []
  busPort : Int := 0
  flags : List Str := []
  primaryID : Str := []
  configEpoch : Int := 0
  linkUp : Bool := false
  role : Role := .replica
  offset : Int := 0
  slots : List SlotRange := []
  knownNodes : Int := 0
  clusterStateOK : Bool := false
  clusterSize : Int := 0
  currentEpoch : Int := 0
  peers : GoMap Str PeerView := ∅
deriving DecidableEq

namespace NodeState

def isPrimary (n : NodeState) : Bool := n.role = .primary

def isReplica (n : NodeState) : Bool := n.role = .replica

def numSlots (n : NodeState) : Int := countSlots n.slots

def hasFlag (n : NodeState) (flag : Str) : Bool := n.flags.contains flag

def isFailed (n : NodeState) : Bool := n.hasFlag flagFail || n.hasFlag flagPFailSoft

/-- Not yet introduced to any peer. -/
def isIsolated (n : NodeState) : Bool := n.knownNodes ≤ 1

end NodeState

structure ShardState where
  id : Str
  primaryID : Str := []
  slots : List SlotRange := []
  nodes : List NodeState := []

namespace ShardState

def primary (s : ShardState) : Option NodeState := s.nodes.find? fun n => n.id == s.primaryID

def numSlots (s : ShardState) : Int := countSlots s.slots

end ShardState

structure ClusterState where
  nodes : List NodeState
  shards : List ShardState
  pendingNodes : List NodeState

/-! ## Grouping -/

/-- A node joins a shard; a primary brings its slots and replaces those of an
earlier one. -/
def ShardState.attach (s : ShardState) (n : NodeState) : ShardState :=
  if n.isPrimary then { s with nodes := s.nodes ++ [n], primaryID := n.id, slots := n.slots }
  else { s with nodes := s.nodes ++ [n] }

/-- Attach a node to the shard with its shard ID, creating it at the end if
absent. -/
def joinShard (n : NodeState) : List ShardState → List ShardState
  | [] => [ShardState.attach { id := n.shardID } n]
  | s :: rest => if s.id = n.shardID then s.attach n :: rest else s :: joinShard n rest

def groupNode (s : ClusterState) (n : NodeState) : ClusterState :=
  if n.isPrimary ∧ n.numSlots = 0 then { s with pendingNodes := s.pendingNodes ++ [n] }
  else { s with shards := joinShard n s.shards }

def newClusterState (nodes : List NodeState) : ClusterState :=
  nodes.foldl groupNode { nodes := nodes, shards := [], pendingNodes := [] }

namespace ClusterState

/-- The scraped node with a given ID; of several the last. -/
def nodeByID (s : ClusterState) (id : Str) : Option NodeState :=
  if id = [] then none else s.nodes.reverse.find? fun n => n.id == id

/-- The scraped node at a given address; of several the last. -/
def nodeByAddr (s : ClusterState) (addr : Str) : Option NodeState :=
  if addr = [] then none else s.nodes.reverse.find? fun n => n.addr == addr

/-! ## Topology queries -/

def subtractFrom (remaining : List SlotRange) (owned : SlotRange) : List SlotRange :=
  remaining.flatMap fun base => subtractSlotRange base owned

/-- The slots no shard owns. -/
def getUnassignedSlots (s : ClusterState) : List SlotRange :=
  (s.shards.flatMap (·.slots)).foldl subtractFrom [⟨0, maxSlot⟩]

/-- Every slot that no shard owns, in ascending order. -/
def freeSlots (s : ClusterState) : List Int :=
  (SlotRange.slots ⟨0, maxSlot⟩).filter fun slot => ¬ Covers (s.shards.flatMap (·.slots)) slot

/-- Whether some node's table flags the node as failed, or its own line does. -/
def isNodeFailed (s : ClusterState) (nodeID : Str) : Bool :=
  (s.nodes.any fun n =>
    match n.peers.lookup nodeID with
    | some peer => peer.flags.contains flagFail || peer.flags.contains flagPFailSoft
    | none => false) ||
  match s.nodeByID nodeID with
  | some self => self.isFailed
  | none => false

/-- Whether some table lists a node with `nodeID` as its primary; with a set of
backed IDs only such nodes count. -/
def hasReplicaOf (s : ClusterState) (nodeID : Str) (backingIDs : Option (List Str)) : Bool :=
  s.nodes.any fun n => n.peers.entries.any fun e =>
    e.2.primaryID == nodeID &&
      match backingIDs with
      | none => true
      | some ids => ids.contains e.2.id

/-- Whether a majority of the slot-owning primaries is reachable. -/
def hasFailoverQuorum (s : ClusterState) : Bool :=
  if s.shards = [] then false
  else
    let live := (s.shards.filter fun shard =>
      match shard.primary with
      | some p => decide (shard.numSlots > 0) && !s.isNodeFailed p.id
      | none => false).length
    let clusterSize : Int := s.nodes.foldl (fun size n => max size n.clusterSize) 0
    if clusterSize = 0 then false else decide ((live : Int) > clusterSize.tdiv 2)

/-- Whether every replica of a shard has its replication link up. -/
def isReplicationInSync (s : ClusterState) : Bool :=
  s.shards.all fun shard => shard.nodes.all fun n => !(n.isReplica && !n.linkUp)

/-- The shard primaries that are flagged as failed. -/
def failedPrimaries (s : ClusterState) : List NodeState :=
  s.shards.filterMap fun shard =>
    match shard.primary with
    | some p => if s.isNodeFailed p.id then some p else none
    | none => none

/-- The replicas of a primary that a graceful failover may promote. -/
def getSyncedReplicas (s : ClusterState) (primaryID : Str) : List NodeState :=
  s.nodes.filter fun n =>
    n.primaryID == primaryID && n.isReplica &&
      !(n.hasFlag flagFail || n.hasFlag flagPFail || n.hasFlag flagPFailSoft) && n.linkUp

/-- The replica with the greatest offset; of several the first. -/
def highestOffset (replicas : List NodeState) : Option NodeState :=
  replicas.foldl (fun best r =>
    match best with
    | none => some r
    | some b => if r.offset > b.offset then some r else some b) none

/-- The scan goes on from the best replica so far. -/
theorem exists_highestOffset (b : NodeState) (rest : List NodeState) :
    ∃ best, highestOffset (b :: rest) = some best ∧ best ∈ b :: rest ∧
      ∀ n ∈ b :: rest, n.offset ≤ best.offset := by
  induction rest generalizing b with
  | nil => exact ⟨b, rfl, List.mem_cons_self, by simp⟩
  | cons r rest ih =>
    by_cases hgt : r.offset > b.offset
    · obtain ⟨best, heq, hmem, hmax⟩ := ih r
      have hr := hmax r List.mem_cons_self
      refine ⟨best, ?_, List.mem_cons_of_mem _ hmem, List.forall_mem_cons.mpr ⟨by omega, hmax⟩⟩
      rw [← heq]
      simp [highestOffset, hgt]
    · obtain ⟨best, heq, hmem, hmax⟩ := ih b
      obtain ⟨hb, hrest⟩ := List.forall_mem_cons.mp hmax
      refine ⟨best, ?_, ?_, ?_⟩
      · rw [← heq]
        simp [highestOffset, hgt]
      · exact List.cons_subset_cons b (List.subset_cons_self r rest) hmem
      · exact List.forall_mem_cons.mpr ⟨hb, List.forall_mem_cons.mpr ⟨by omega, hrest⟩⟩

theorem highestOffset_eq_some {replicas : List NodeState} {best : NodeState}
    (h : highestOffset replicas = some best) :
    best ∈ replicas ∧ ∀ n ∈ replicas, n.offset ≤ best.offset := by
  cases replicas with
  | nil => cases h
  | cons b rest =>
    obtain ⟨best', heq, hmem, hmax⟩ := exists_highestOffset b rest
    cases heq.symm.trans h
    exact ⟨hmem, hmax⟩

theorem highestOffset_isSome {replicas : List NodeState} (h : replicas ≠ []) :
    ∃ best, highestOffset replicas = some best := by
  obtain ⟨b, rest, rfl⟩ := List.exists_cons_of_ne_nil h
  obtain ⟨best, heq, -, -⟩ := exists_highestOffset b rest
  exact ⟨best, heq⟩

def highestOffsetReplica (s : ClusterState) (primaryID : Str) : Option NodeState :=
  highestOffset (s.getSyncedReplicas primaryID)

/-- The best replica of a dead primary, whatever the state of its link. -/
def bestReplicaOf (s : ClusterState) (deadPrimaryID : Str) : Option NodeState :=
  highestOffset (s.nodes.filter fun n => n.primaryID == deadPrimaryID && n.isReplica)

def primaryByShardID (s : ClusterState) (shardID : Str) : Option NodeState :=
  match s.shards.find? fun shard => shard.id == shardID with
  | some shard => shard.primary
  | none => none

/-- Whether the table of one node lists the other. -/
def gossipVisible (s : ClusterState) (srcID dstID : Str) : Bool :=
  match s.nodeByID srcID with
  | some src => (src.peers.lookup dstID).isSome
  | none => false

/-- Whether an ID of some node's table may be forgotten: it is not backed, and
no backed node replicates it. -/
def isStale (s : ClusterState) (backingIDs : List Str) (id : Str) : Bool :=
  id ≠ [] && !backingIDs.contains id && !s.hasReplicaOf id (some backingIDs)

/-- The IDs in the gossip tables that may be forgotten, each once, sorted. -/
def staleNodeIDs (s : ClusterState) (backingIDs : List Str) : List Str :=
  (((s.nodes.flatMap (·.peers.keys)).filter (s.isStale backingIDs)).dedup).insertionSort (· ≤ ·)

/-! ## The unassigned slots are the complement -/

theorem spaced_getUnassignedSlots {s : ClusterState} (h : Ordered (s.shards.flatMap (·.slots))) :
    Spaced s.getUnassignedSlots :=
  spaced_foldl_subtract h (List.pairwise_singleton _ _)

theorem getUnassignedSlots_spec {s : ClusterState} (h : Ordered (s.shards.flatMap (·.slots))) :
    Ordered s.getUnassignedSlots ∧ Apart s.getUnassignedSlots ∧
      ∀ slot, Covers s.getUnassignedSlots slot ↔
        Covers [⟨0, maxSlot⟩] slot ∧ ¬ Covers (s.shards.flatMap (·.slots)) slot :=
  ⟨ordered_foldl_subtract (by decide) _, (spaced_getUnassignedSlots h).apart,
    covers_foldl_subtract h _⟩

/-- The unassigned ranges list the slots no shard owns, in order. -/
theorem expand_getUnassignedSlots {s : ClusterState}
    (h : Ordered (s.shards.flatMap (·.slots))) : expand s.getUnassignedSlots = s.freeSlots := by
  obtain ⟨-, hapart, hcovers⟩ := getUnassignedSlots_spec h
  refine (pairwise_expand hapart).eq_of_mem_iff
    ((SlotRange.pairwise_slots ⟨0, maxSlot⟩).filter _) fun slot => ?_
  rw [mem_expand, hcovers, covers_singleton, freeSlots, List.mem_filter, SlotRange.mem_slots,
    decide_eq_true_eq]

end ClusterState

/-! ## Shards own what their nodes own -/

theorem joinShard_slots {n : NodeState} {shards : List ShardState} {r : SlotRange}
    (h : r ∈ (joinShard n shards).flatMap (·.slots)) :
    r ∈ n.slots ∨ r ∈ shards.flatMap (·.slots) := by
  induction shards with
  | nil =>
    unfold joinShard ShardState.attach at h
    split at h <;> simp_all
  | cons s rest ih =>
    unfold joinShard at h
    split at h
    · unfold ShardState.attach at h
      split at h
      · rw [List.flatMap_cons, List.mem_append] at h ⊢
        exact h.imp_right .inr
      · exact .inr h
    · rw [List.flatMap_cons, List.mem_append] at h ⊢
      rcases h with h | h
      · exact .inr (.inl h)
      · exact (ih h).imp_right .inr

theorem newClusterState_ordered {nodes : List NodeState} (h : ∀ n ∈ nodes, Ordered n.slots) :
    Ordered ((newClusterState nodes).shards.flatMap (·.slots)) := by
  suffices ∀ (ns : List NodeState) (s : ClusterState), (∀ n ∈ ns, Ordered n.slots) →
      Ordered (s.shards.flatMap (·.slots)) →
      Ordered ((ns.foldl groupNode s).shards.flatMap (·.slots)) from
    this nodes _ h fun r hr => nomatch hr
  intro ns
  induction ns with
  | nil => exact fun s _ hs => hs
  | cons n ns ih =>
    intro s hns hs
    refine ih _ (fun m hm => hns m (by simp [hm])) ?_
    unfold groupNode
    split
    · exact hs
    · intro r hr
      rcases joinShard_slots hr with hr | hr
      · exact hns n (by simp) r hr
      · exact hs r hr

end ValkeyOperator.Valkey

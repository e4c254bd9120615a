import ValkeyOperator.Cluster.Pipeline
import ValkeyOperator.Cluster.Reform

/-! The bootstrap join (`bootstrap.go` and `bootstrapJoin` of `controller.go`).

Nodes are introduced to each other, slotless primaries get slots and replicas are
attached, each phase ending the pass when it has done something. Which nodes are
attached is decided by node index alone: index 0 is taken for a new primary that
waits for slots, also where another node of the shard already owns them. -/

namespace ValkeyOperator.Cluster
open Text Valkey Api

variable {positions : GoMap Str NodePosition} {scraped : List NodeState} {pos : NodePosition}
  {n p : NodeState} {S : Sorter NodeState}

def reasonClusterMeet : Str := "ClusterMeet"
def reasonSlotsUnassigned : Str := "SlotsUnassigned"
def reasonMissingReplicas : Str := "MissingReplicas"

/-! ## Introductions -/

def isolatedPendingNodes (S : Sorter NodeState) (state : ClusterState) : List NodeState :=
  sortByAddr S (state.pendingNodes.filter NodeState.isIsolated)

/-- The node all isolated ones are introduced to: the primary of a shard, else a
pending node that has joined, else the first isolated one. -/
def meetTarget (state : ClusterState) (isolated : List NodeState) : Option NodeState :=
  match state.shards.findSome? ShardState.primary with
  | some p => some p
  | none =>
    match state.pendingNodes.find? fun n => !n.isIsolated with
    | some n => some n
    | none => isolated.head?

/-- Raise the config epochs above the target's; refusals are only logged. -/
def bumpConfigEpochs (target : NodeState) : List NodeState → Nat → Action Engines Unit
  | [], _ => pure ()
  | n :: rest, i =>
    (Wire.send (n, .setConfigEpoch (target.currentEpoch + i + 1))).handle
      (fun _ => bumpConfigEpochs target rest (i + 1))
      (fun _ => bumpConfigEpochs target rest (i + 1))

def meetError (source dest : NodeState) : Err → Err :=
  Err.wrap ("CLUSTER MEET " ++ source.addr ++ " -> " ++ dest.addr)

/-- The loop over the isolated nodes; it counts those introduced both ways. -/
def meetEach (target : NodeState) : List NodeState → Nat → Action Engines Nat
  | [], met => pure met
  | n :: rest, met =>
    (Wire.send (n, .meet (hostFromAddr target.addr))).mapErr (meetError n target) >>= fun _ =>
    (Wire.send (target, .meet (hostFromAddr n.addr))).mapErr (meetError target n) >>= fun _ =>
    meetEach target rest (met + 1)

def meetIsolatedNodes (S : Sorter NodeState) (state : ClusterState) : Action Engines Nat :=
  let isolated := isolatedPendingNodes S state
  if isolated = [] then pure 0
  else
    match meetTarget state isolated with
    | none => pure 0
    | some target =>
      bumpConfigEpochs target isolated 0 >>= fun _ =>
      -- a target that is itself isolated is the first of them
      meetEach target (if isolated.head? = some target then isolated.tail else isolated) 0

/-- The loop of `meetAllReachable`: a refused introduction is passed over. -/
def meetAll (target : NodeState) : List NodeState → Nat → Action Engines Nat
  | [], met => pure met
  | n :: rest, met =>
    (Wire.send (target, .meet (hostFromAddr n.addr))).handle
      (fun _ => (Wire.send (n, .meet (hostFromAddr target.addr))).handle
        (fun _ => meetAll target rest (met + 1))
        (fun _ => meetAll target rest met))
      (fun _ => meetAll target rest met)

def meetAllReachable (S : Sorter NodeState) (state : ClusterState) (skipKnownNodesGuard : Bool) :
    Action Engines Nat :=
  if state.nodes.length < 2 then pure 0
  else if !skipKnownNodesGuard &&
      state.nodes.all fun n => decide ((state.nodes.length : Int) ≤ n.knownNodes) then pure 0
  else
    match sortByAddr S state.nodes with
    | [] => pure 0
    | target :: rest => meetAll target rest 0

/-! ## Attaching replicas -/

/-- A slotless primary at node index 0, under its shard index. -/
def pendingPrimaryID (positions : GoMap Str NodePosition) (p : NodeState) : Option (Int × Str) :=
  if p.isPrimary then
    match positions.lookup (hostFromAddr p.addr) with
    | some pos => if pos.isPrimary then some (pos.shard, p.id) else none
    | none => none
  else none

/-- The primary of a shard, whichever its node index. -/
def shardPrimaryID (positions : GoMap Str NodePosition) (s : ShardState) : Option (Int × Str) :=
  match s.primary with
  | none => none
  | some p => (positions.lookup (hostFromAddr p.addr)).map fun pos => (pos.shard, p.id)

/-- Each shard index with the ID of its primary; those that own slots overwrite the
slotless ones. -/
def shardPrimaryIDs (state : ClusterState) (positions : GoMap Str NodePosition) : GoMap Int Str :=
  (state.pendingNodes.filterMap (pendingPrimaryID positions) ++
    state.shards.filterMap (shardPrimaryID positions)).foldl (fun ids e => ids.insert e.1 e.2) ∅

/-- `strings.ToLower` as far as the words searched for can tell: of their letters
only k has a capital beyond ASCII, the Kelvin sign. -/
def foldLetter (c : Char) : Char := if c = 'K' then 'k' else c.toLower

/-- The engine does not know the node it is to replicate. -/
def unknownNode (e : Err) : Bool :=
  (e.msg.map foldLetter).tails.any fun rest => hasPrefix rest "unknown node"

/-- The primary a pending node is to be attached to. -/
def replicaTarget (positions : GoMap Str NodePosition) (primaryIDByShard : GoMap Int Str)
    (n : NodeState) : Option Str :=
  if n.isIsolated then none
  else
    match positionFor positions n with
    | none => none
    | some pos =>
      if pos.isPrimary then none
      else (primaryIDByShard.lookup pos.shard).filter (· ≠ [])

/-- The loop over the pending nodes; it counts those that were attached. -/
def replicateEach (positions : GoMap Str NodePosition) (primaryIDByShard : GoMap Int Str) :
    List NodeState → Nat → Action Engines Nat
  | [], replicated => pure replicated
  | n :: rest, replicated =>
    match replicaTarget positions primaryIDByShard n with
    | none => replicateEach positions primaryIDByShard rest replicated
    | some primaryID =>
      (Wire.send (n, .replicate primaryID)).handle
        (fun _ => replicateEach positions primaryIDByShard rest (replicated + 1))
        (fun e =>
          -- gossip has not brought the primary yet: the next pass asks again
          if unknownNode e then replicateEach positions primaryIDByShard rest replicated
          else throw (e.wrap
            ("CLUSTER REPLICATE " ++ n.addr ++ " -> " ++ primaryID)))

def replicatePendingReplicas (state : ClusterState) (nodes : List ValkeyNode) :
    Action Engines Nat :=
  let positions := positionsByIP nodes
  replicateEach positions (shardPrimaryIDs state positions) state.pendingNodes 0

/-! ## The pass -/

/-- One phase: its failure or its progress ends the pass. -/
def joinPhase (reason message : Str) (progressed : Action Engines Bool)
    (next : Action Engines JoinOutcome) : Action Engines JoinOutcome :=
  progressed.handle (fun p => if p then pure (.progressed message) else next)
    fun e => pure (.failed reason e)

def allNodesReady (nodes : List ValkeyNode) : Bool :=
  !nodes.isEmpty && nodes.all fun n => n.status.ready

def allReachableClusterStateOK (state : ClusterState) : Bool :=
  !state.nodes.isEmpty && state.nodes.all NodeState.clusterStateOK

/-- Whether a count is progress. -/
def someDone (count : Action Engines Nat) : Action Engines Bool :=
  count >>= fun k => pure (decide (0 < k))

/-- The phase of restore targets. -/
def reformPhase (S : Sorter NodeState) (R : Sorter SlotRange) (cluster : PerconaValkeyCluster)
    (state : ClusterState) (nodes : List ValkeyNode) : Action Engines Bool :=
  if !isRestoreTarget cluster || decide (state.getUnassignedSlots = []) then pure false
  else meetAllReachable S state false >>= reformRestoreTarget R cluster state nodes

def repairPhase (S : Sorter NodeState) (state : ClusterState) (nodes : List ValkeyNode) :
    Action Engines JoinOutcome :=
  if !allReachableClusterStateOK state && allNodesReady nodes then
    joinPhase [] "repairing stale gossip via CLUSTER MEET"
      (someDone (meetAllReachable S state true)) (pure .nothing)
  else pure .nothing

def bootstrapJoin (S : Sorter NodeState) (R : Sorter SlotRange) (cluster : PerconaValkeyCluster)
    (state : ClusterState) (nodes : List ValkeyNode) : Action Engines JoinOutcome :=
  joinPhase reasonClusterMeet "re-forming restore-seeded cluster"
    (reformPhase S R cluster state nodes) <|
  joinPhase reasonClusterMeet "introducing nodes via CLUSTER MEET"
    (someDone (meetIsolatedNodes S state)) <|
  joinPhase reasonSlotsUnassigned "assigning slots to primaries"
    (someDone (assignSlotsToPendingPrimaries S cluster state nodes)) <|
  joinPhase reasonMissingReplicas "attaching replicas"
    (someDone (replicatePendingReplicas state nodes)) <|
  repairPhase S state nodes

/-! ## What every command keeps -/

section Keeps

open ValkeyOperator.Action

variable {P : Engines → Prop}

theorem keeps_someDone {count : Action Engines Nat} (h : Keeps P count fun _ => True) :
    Keeps P (someDone count) fun _ => True := h.bind fun _ _ => Keeps.pure trivial

section Introductions

variable (hepoch : ∀ n epoch, Keeps P (Wire.send (n, Command.setConfigEpoch epoch)) fun _ => True)
  (hmeet : ∀ n ip, Keeps P (Wire.send (n, Command.meet ip)) fun _ => True)

include hepoch in
theorem keeps_bumpConfigEpochs (target : NodeState) (ns : List NodeState) (i : Nat) :
    Keeps P (bumpConfigEpochs target ns i) fun _ => True := by
  induction ns generalizing i with
  | nil => exact Keeps.pure trivial
  | cons n rest ih => exact (hepoch _ _).handle (fun _ _ => ih _) fun _ => ih _

include hmeet in
theorem keeps_meetEach (target : NodeState) (ns : List NodeState) (met : Nat) :
    Keeps P (meetEach target ns met) fun _ => True := by
  induction ns generalizing met with
  | nil => exact Keeps.pure trivial
  | cons n rest ih =>
    exact (hmeet _ _).mapErr.bind fun _ _ => (hmeet _ _).mapErr.bind fun _ _ => ih _

include hepoch hmeet in
theorem keeps_meetIsolatedNodes (S : Sorter NodeState) (state : ClusterState) :
    Keeps P (meetIsolatedNodes S state) fun _ => True := by
  unfold meetIsolatedNodes
  dsimp only
  split
  · exact Keeps.pure trivial
  · split
    · exact Keeps.pure trivial
    · exact (keeps_bumpConfigEpochs hepoch _ _ _).bind fun _ _ => keeps_meetEach hmeet _ _ _

include hmeet in
theorem keeps_meetAll (target : NodeState) (ns : List NodeState) (met : Nat) :
    Keeps P (meetAll target ns met) fun _ => True := by
  induction ns generalizing met with
  | nil => exact Keeps.pure trivial
  | cons n rest ih =>
    exact (hmeet _ _).handle (fun _ _ => (hmeet _ _).handle (fun _ _ => ih _) fun _ => ih _)
      fun _ => ih _

include hmeet in
theorem keeps_meetAllReachable (S : Sorter NodeState) (state : ClusterState) (skip : Bool) :
    Keeps P (meetAllReachable S state skip) fun _ => True := by
  unfold meetAllReachable
  split
  · exact Keeps.pure trivial
  · split
    · exact Keeps.pure trivial
    · split
      · exact Keeps.pure trivial
      · exact keeps_meetAll hmeet _ _ _

end Introductions

variable (hsend : ∀ c, Keeps P (Wire.send c) fun _ => True)
include hsend

theorem keeps_assignEach (plans : List (NodeState × List SlotRange)) (assigned : Nat) :
    Keeps P (assignEach plans assigned) fun _ => True := by
  induction plans generalizing assigned with
  | nil => exact Keeps.pure trivial
  | cons plan rest ih =>
    unfold assignEach
    split
    · exact ih _
    · exact (hsend _).mapErr.bind fun _ _ => ih _

theorem keeps_assignSlotsToPendingPrimaries (S : Sorter NodeState)
    (cluster : PerconaValkeyCluster) (state : ClusterState) (nodes : List ValkeyNode) :
    Keeps P (assignSlotsToPendingPrimaries S cluster state nodes) fun _ => True := by
  unfold assignSlotsToPendingPrimaries
  dsimp only
  split
  · exact Keeps.pure trivial
  · split
    · exact Keeps.pure trivial
    · exact keeps_assignEach hsend _ _

theorem keeps_fillGaps (R : Sorter SlotRange) (positions : GoMap Str NodePosition)
    (shardRanges : List SlotRange) (ns : List NodeState) (assigned : Nat) :
    Keeps P (fillGaps R positions shardRanges ns assigned) fun _ => True := by
  induction ns generalizing assigned with
  | nil => exact Keeps.pure trivial
  | cons n rest ih =>
    unfold fillGaps
    split
    · exact ih _
    · dsimp only
      split
      · exact ih _
      · exact (hsend _).mapErr.bind fun _ _ => ih _

theorem keeps_reformRestoreTarget (R : Sorter SlotRange) (cluster : PerconaValkeyCluster)
    (state : ClusterState) (nodes : List ValkeyNode) (met : Nat) :
    Keeps P (reformRestoreTarget R cluster state nodes met) fun _ => True := by
  unfold reformRestoreTarget
  split
  · exact Keeps.pure trivial
  · split
    · exact Keeps.pure trivial
    · split
      · exact Keeps.pure trivial
      · exact (keeps_fillGaps hsend _ _ _ _ _).bind fun _ _ => Keeps.pure trivial

theorem keeps_reformPhase (S : Sorter NodeState) (R : Sorter SlotRange)
    (cluster : PerconaValkeyCluster) (state : ClusterState) (nodes : List ValkeyNode) :
    Keeps P (reformPhase S R cluster state nodes) fun _ => True := by
  unfold reformPhase
  split
  · exact Keeps.pure trivial
  · exact (keeps_meetAllReachable (fun _ _ => hsend _) _ _ _).bind fun _ _ =>
      keeps_reformRestoreTarget hsend _ _ _ _ _

theorem keeps_replicateEach (positions : GoMap Str NodePosition)
    (primaryIDByShard : GoMap Int Str) (ns : List NodeState) (replicated : Nat) :
    Keeps P (replicateEach positions primaryIDByShard ns replicated) fun _ => True := by
  induction ns generalizing replicated with
  | nil => exact Keeps.pure trivial
  | cons n rest ih =>
    unfold replicateEach
    split
    · exact ih _
    · refine (hsend _).handle (fun _ _ => ih _) fun e => ?_
      split
      · exact ih _
      · exact Keeps.throw _

theorem keeps_repairPhase (S : Sorter NodeState) (state : ClusterState)
    (nodes : List ValkeyNode) : Keeps P (repairPhase S state nodes) fun _ => True := by
  unfold repairPhase
  split
  · refine (keeps_someDone (keeps_meetAllReachable (fun _ _ => hsend _) _ _ _)).handle (fun p _ => ?_)
      fun _ => Keeps.pure trivial
    split <;> exact Keeps.pure trivial
  · exact Keeps.pure trivial

end Keeps

/-! ## A pass without progress -/

theorem joinPhase_nothing {reason message : Str} {progressed : Action Engines Bool}
    {next : Action Engines JoinOutcome} {w w' : Engines}
    (h : joinPhase reason message progressed next w = .ok .nothing w') :
    ∃ v, progressed w = .ok false v ∧ next v = .ok .nothing w' := by
  unfold joinPhase Action.handle at h
  split at h
  · rename_i p v hp
    cases p with
    | false => exact ⟨v, hp, h⟩
    | true => cases h
  · cases h

theorem someDone_false {count : Action Engines Nat} {w v : Engines}
    (h : someDone count w = .ok false v) : count w = .ok 0 v := by
  obtain ⟨k, v', hcount, hret⟩ := Action.Returns.bind h
  obtain ⟨hk, hv⟩ := Action.Returns.pure hret
  have hzero : k = 0 := by simpa using hk
  rw [hv, ← hzero]
  exact hcount

/-- The loop never counts down, and where it counted nothing every node with a
primary to attach to was asked and did not know that primary. -/
theorem replicateEach_none {ids : GoMap Int Str} {replies : List (Option Err)}
    {ns : List NodeState} {k m : Nat} {w w' : Engines} (hw : Wire.InStep replies w)
    (h : replicateEach positions ids ns k w = .ok m w') :
    k ≤ m ∧ (m = k → ∀ n ∈ ns, ∀ id, replicaTarget positions ids n = some id →
      ∃ e, Wire.Refused replies w' (n, .replicate id) e ∧ unknownNode e = true) := by
  induction ns generalizing k w with
  | nil =>
    obtain ⟨rfl, -⟩ := Action.Returns.pure h
    exact ⟨le_rfl, fun _ n hn => by cases hn⟩
  | cons n rest ih =>
    unfold replicateEach at h
    cases htarget : replicaTarget positions ids n with
    | none =>
      rw [htarget] at h
      obtain ⟨hle, hrest⟩ := ih hw h
      refine ⟨hle, fun hm n' hn' id hid => ?_⟩
      rcases List.mem_cons.mp hn' with rfl | hn'
      · rw [htarget] at hid
        cases hid
      · exact hrest hm n' hn' id hid
    | some primaryID =>
      rw [htarget] at h
      have hsent := (Wire.keeps_inStep_send replies (n, Command.replicate primaryID)).after hw
      unfold Action.handle at h
      dsimp only at h
      split at h
      · -- the node was attached, and the count is above `k` from here on
        rename_i v hv
        obtain ⟨hle, -⟩ := ih (Action.Returns.after_eq hv ▸ hsent) h
        exact ⟨by omega, fun hm => by omega⟩
      · rename_i e v hv
        split at h
        · rename_i hunknown
          have hv' : (Wire.send (n, Command.replicate primaryID)).after w = v := by
            simp [Action.after, hv]
          obtain ⟨hle, hrest⟩ := ih (hv' ▸ hsent) h
          refine ⟨hle, fun hm n' hn' id hid => ?_⟩
          rcases List.mem_cons.mp hn' with rfl | hn'
          · rw [htarget] at hid
            cases hid
            have hkept := (keeps_replicateEach (Wire.keeps_refused_send replies _ e) positions ids
              rest k).after (Wire.refused_of_error hw hv)
            rw [Action.Returns.after_eq h] at hkept
            exact ⟨e, hkept, hunknown⟩
          · exact hrest hm n' hn' id hid
        · cases h

/-! ## Primaries by shard index -/

/-- The primary of a scraped shard, which its address places at this shard index. -/
structure PrimaryAt (state : ClusterState) (positions : GoMap Str NodePosition) (shard : Int)
    (p : NodeState) : Prop where
  primary : ∃ s ∈ state.shards, s.primary = some p
  position : ∃ q, positions.lookup (hostFromAddr p.addr) = some q ∧ q.shard = shard

theorem mem_shardPrimaryID {shards : List ShardState} {shard : Int} {id : Str} :
    (shard, id) ∈ shards.filterMap (shardPrimaryID positions) ↔
      ∃ p, (∃ s ∈ shards, s.primary = some p) ∧
        (∃ q, positions.lookup (hostFromAddr p.addr) = some q ∧ q.shard = shard) ∧ id = p.id := by
  rw [List.mem_filterMap]
  constructor
  · rintro ⟨s, hs, hentry⟩
    unfold shardPrimaryID at hentry
    split at hentry
    · cases hentry
    · rename_i p hp
      obtain ⟨q, hq, he⟩ := Option.map_eq_some_iff.mp hentry
      cases he
      exact ⟨p, ⟨s, hs, hp⟩, ⟨q, hq, rfl⟩, rfl⟩
  · rintro ⟨p, ⟨s, hs, hp⟩, ⟨q, hq, rfl⟩, rfl⟩
    exact ⟨s, hs, by simp [shardPrimaryID, hp, hq]⟩

theorem lookup_shardPrimaryIDs {state : ClusterState} {shard : Int}
    (h : PrimaryAt state positions shard p) :
    ∃ p', PrimaryAt state positions shard p' ∧
      (shardPrimaryIDs state positions).lookup shard = some p'.id := by
  have hmem : ∃ e ∈ state.shards.filterMap (shardPrimaryID positions), e.1 = shard :=
    ⟨(shard, p.id), mem_shardPrimaryID.mpr ⟨p, h.primary, h.position, rfl⟩, rfl⟩
  unfold shardPrimaryIDs
  rw [List.foldl_append]
  obtain ⟨⟨_, id⟩, hid, rfl, hlookup⟩ := Inserts.lookup_of_mem hmem
  obtain ⟨p', hprimary, hposition, rfl⟩ := mem_shardPrimaryID.mp hid
  exact ⟨p', ⟨hprimary, hposition⟩, hlookup⟩

/-! ## Nodes left outside their shard -/

/-- A slotless primary that has joined the cluster, at a shard index where another
node is the live primary and owns slots. -/
structure Stray (state : ClusterState) (positions : GoMap Str NodePosition) (n p : NodeState)
    (pos : NodePosition) : Prop where
  scraped : n ∈ state.nodes
  primary : n.isPrimary = true
  slotless : n.numSlots = 0
  joined : n.isIsolated = false
  position : positionFor positions n = some pos
  owner : PrimaryAt state positions pos.shard p
  ownsSlots : p.ownsSlots = true
  different : p.id ≠ n.id

theorem mem_of_shard_primary {s : ShardState} (hs : s ∈ (newClusterState scraped).shards)
    (hp : s.primary = some p) : p ∈ scraped := by
  obtain ⟨n, -, -, rfl⟩ := mem_newClusterState_shards.mp hs
  unfold ShardState.primary at hp
  rw [shardOf_nodes] at hp
  exact (mem_shardNodes.mp (List.mem_of_find?_eq_some hp)).1

/-- A stray node away from index 0 has a primary to attach to. -/
theorem Stray.replicaTarget (hids : ∀ m ∈ scraped, m.id ≠ [])
    (h : Stray (newClusterState scraped) positions n p pos) (hindex : pos.node ≠ 0) :
    ∃ p', PrimaryAt (newClusterState scraped) positions pos.shard p' ∧
      replicaTarget positions (shardPrimaryIDs (newClusterState scraped) positions) n =
        some p'.id := by
  obtain ⟨p', hp', hlookup⟩ := lookup_shardPrimaryIDs h.owner
  refine ⟨p', hp', ?_⟩
  obtain ⟨s, hs, hprimary⟩ := hp'.primary
  have hid := hids p' (mem_of_shard_primary hs hprimary)
  unfold Cluster.replicaTarget
  simp [h.joined, h.position, NodePosition.isPrimary, hindex, hlookup, hid]

theorem Stray.pending (h : Stray (newClusterState scraped) positions n p pos) :
    n ∈ (newClusterState scraped).pendingNodes := by
  rw [(newClusterState_groups scraped).2, List.mem_filter]
  refine ⟨newClusterState_nodes scraped ▸ h.scraped, ?_⟩
  simp [NodeState.isPending, h.primary, h.slotless]

/-- Where a pass made no progress, every primary that a stray node away from index 0
could be attached to was refused by it as unknown. -/
theorem bootstrapJoin_refused {R : Sorter SlotRange} {cluster : PerconaValkeyCluster}
    {nodes : List ValkeyNode} {replies : List (Option Err)} (hids : ∀ m ∈ scraped, m.id ≠ [])
    (hquiet : (bootstrapJoin S R cluster (newClusterState scraped) nodes).outcome ⟨[], replies⟩ =
      .ok .nothing) (h : Stray (newClusterState scraped) (positionsByIP nodes) n p pos)
    (hindex : pos.node ≠ 0) :
    ∃ p' e, PrimaryAt (newClusterState scraped) (positionsByIP nodes) pos.shard p' ∧
      Wire.Refused replies
        ((bootstrapJoin S R cluster (newClusterState scraped) nodes).after ⟨[], replies⟩)
        (n, .replicate p'.id) e ∧ unknownNode e = true := by
  obtain ⟨w', hrun⟩ := Action.Returns.of_outcome hquiet
  rw [hrun.after_eq]
  obtain ⟨v₁, hreform, hrun₁⟩ := joinPhase_nothing hrun
  obtain ⟨v₂, hmeet, hrun₂⟩ := joinPhase_nothing hrun₁
  obtain ⟨v₃, hassign, hrun₃⟩ := joinPhase_nothing hrun₂
  obtain ⟨v₄, hreplicate, hrun₄⟩ := joinPhase_nothing hrun₃
  have hsend := Wire.keeps_inStep_send (C := NodeState × Command) replies
  have h₁ : Wire.InStep replies v₁ := Action.Returns.after_eq hreform ▸
    (keeps_reformPhase hsend S R cluster (newClusterState scraped) nodes).after rfl
  have h₂ : Wire.InStep replies v₂ := Action.Returns.after_eq (someDone_false hmeet) ▸
    (keeps_meetIsolatedNodes (fun _ _ => hsend _) (fun _ _ => hsend _) S
      (newClusterState scraped)).after h₁
  have h₃ : Wire.InStep replies v₃ := Action.Returns.after_eq (someDone_false hassign) ▸
    (keeps_assignSlotsToPendingPrimaries hsend S cluster (newClusterState scraped) nodes).after h₂
  obtain ⟨p', hp', htarget⟩ := h.replicaTarget hids hindex
  obtain ⟨e, hrefused, hunknown⟩ :=
    (replicateEach_none h₃ (someDone_false hreplicate)).2 rfl n h.pending _ htarget
  have hkept := (keeps_repairPhase (Wire.keeps_refused_send replies (n, Command.replicate p'.id) e)
    S (newClusterState scraped) nodes).after hrefused
  rw [Action.Returns.after_eq hrun₄] at hkept
  exact ⟨p', e, hp', hkept, hunknown⟩

/-- Where a pass made no progress, no node is left outside its shard exactly when no
such node has index 0 and all of them already know the primaries at their shard
index. -/
theorem bootstrapJoin_leaves_none_iff (S : Sorter NodeState) (R : Sorter SlotRange)
    (cluster : PerconaValkeyCluster) (scraped : List NodeState) (nodes : List ValkeyNode)
    (replies : List (Option Err)) (hids : ∀ m ∈ scraped, m.id ≠ [])
    (hengines : ∀ n id e, Wire.Refused replies
        ((bootstrapJoin S R cluster (newClusterState scraped) nodes).after ⟨[], replies⟩)
        (n, .replicate id) e → unknownNode e = true → id ∉ n.peers)
    (hquiet : (bootstrapJoin S R cluster (newClusterState scraped) nodes).outcome ⟨[], replies⟩ =
      .ok .nothing) :
    (∀ n p pos, ¬ Stray (newClusterState scraped) (positionsByIP nodes) n p pos) ↔
    ∀ n p pos, Stray (newClusterState scraped) (positionsByIP nodes) n p pos →
      pos.node ≠ 0 ∧
        ∀ q, PrimaryAt (newClusterState scraped) (positionsByIP nodes) pos.shard q →
          q.id ∈ n.peers := by
  constructor
  · intro hnone n p pos hstray
    exact absurd hstray (hnone n p pos)
  · intro hcond n p pos hstray
    obtain ⟨hindex, hknown⟩ := hcond n p pos hstray
    obtain ⟨p', e, hp', hrefused, hunknown⟩ := bootstrapJoin_refused hids hquiet hstray hindex
    exact hengines n p'.id e hrefused hunknown (hknown p' hp')

/-- A shard after a failover: `b2` at index 1 owns all slots, and `a1` at index 0 has
rejoined, as `flags` and `role` say. -/
def promotedShard (flags primaryID role : Str) : List NodeReplies :=
  let table : Str → Str := fun me =>
    let own := fun id => if id = me then "myself,".toList else []
    "a1 10.0.0.1:6379@16379 " ++ own "a1" ++ flags ++ " " ++ primaryID ++
      " 0 0 3 connected\n" ++
    "b2 10.0.0.2:6379@16379 " ++ own "b2" ++
      "master - 0 0 2 connected 0-16383\n"
  let info := "cluster_state:ok\r\ncluster_known_nodes:2\r\n".toList
  [⟨"a1", "s1", "10.0.0.1:6379", role, info, table "a1"⟩,
   ⟨"b2", "s2", "10.0.0.2:6379", "role:master\r\n", info,
      table "b2"⟩]

def shardNodePair : List ValkeyNode :=
  [nodeAt "prod" 0 0 "10.0.0.1", nodeAt "prod" 0 1 "10.0.0.2"]

def joinOf (texts : List NodeReplies) : Action Engines JoinOutcome :=
  bootstrapJoin .insertion .insertion
    { name := "prod", spec := { shards := 1, replicas := 1 } }
    (newClusterState (texts.map NodeReplies.state)) shardNodePair

def keptPrimary : List NodeReplies :=
  promotedShard "slave" "b2" "role:slave\r\n"

def cameBackEmpty : List NodeReplies :=
  promotedShard "master" "-" "role:master\r\n"

theorem bootstrapJoin_leaves_none_replica :
    (joinOf keptPrimary).outcome ⟨[], []⟩ = .ok .nothing ∧
    ∀ n p pos, ¬ Stray (newClusterState (keptPrimary.map NodeReplies.state))
      (positionsByIP shardNodePair) n p pos := by
  have hquiet : (joinOf keptPrimary).outcome ⟨[], []⟩ = .ok .nothing := by decide +kernel
  have hfacts : (∀ m ∈ keptPrimary.map NodeReplies.state, m.id ≠ []) ∧
      ∀ m ∈ keptPrimary.map NodeReplies.state, m.isPrimary = true → m.numSlots ≠ 0 := by
    decide +kernel
  refine ⟨hquiet, (bootstrapJoin_leaves_none_iff _ _ _ _ _ [] hfacts.1 ?_ hquiet).mpr ?_⟩
  · intro n id e hrefused
    obtain ⟨i, -, hreply⟩ := hrefused
    cases hreply
  · intro n p pos hstray
    have hn := newClusterState_nodes _ ▸ hstray.scraped
    exact absurd hstray.slotless (hfacts.2 n hn hstray.primary)

/-- The node at index 0 that came back empty is left a slotless primary beside the
promoted one. -/
theorem bootstrapJoin_leaves_returned :
    (joinOf cameBackEmpty).outcome ⟨[], []⟩ = .ok .nothing ∧
    ∃ n p, Stray (newClusterState (cameBackEmpty.map NodeReplies.state))
      (positionsByIP shardNodePair) n p ⟨0, 0⟩ := by
  let n := (cameBackEmpty.map NodeReplies.state)[0]
  let p := (cameBackEmpty.map NodeReplies.state)[1]
  have hfacts : (joinOf cameBackEmpty).outcome ⟨[], []⟩ = .ok .nothing ∧
      (n.isPrimary = true ∧ n.numSlots = 0 ∧ n.isIsolated = false ∧
        positionFor (positionsByIP shardNodePair) n = some ⟨0, 0⟩) ∧
      ((∃ s ∈ (newClusterState (cameBackEmpty.map NodeReplies.state)).shards,
          s.primary = some p) ∧
        (positionsByIP shardNodePair).lookup (hostFromAddr p.addr) = some ⟨0, 1⟩ ∧
        p.ownsSlots = true ∧ p.id ≠ n.id) := by
    decide +kernel
  obtain ⟨hquiet, ⟨hprimary, hslotless, hjoined, hposition⟩, hshard, hlookup, howns, hne⟩ := hfacts
  refine ⟨hquiet, n, p, ?_, hprimary, hslotless, hjoined, hposition,
    ⟨hshard, ⟨0, 1⟩, hlookup, rfl⟩, howns, hne⟩
  rw [newClusterState_nodes]
  exact List.getElem_mem _

/-! ## One batch of introductions -/

/-- Both directions. -/
def introductions (target n : NodeState) : List (NodeState × Command) :=
  [(n, .meet (hostFromAddr target.addr)), (target, .meet (hostFromAddr n.addr))]

/-- The config epochs of the isolated nodes from position `i` on. -/
def epochsAbove (target : NodeState) (i count : Nat) : List Int :=
  (List.range' i count).map fun (k : Nat) => target.currentEpoch + k + 1

theorem issues_bumpConfigEpochs (target : NodeState) (ns : List NodeState) (i : Nat) :
    Wire.Issues (bumpConfigEpochs target ns i) ()
      (ns.zipWith (fun n e => (n, .setConfigEpoch e)) (epochsAbove target i ns.length)) := by
  induction ns generalizing i with
  | nil => exact Wire.Issues.pure ()
  | cons n rest ih => exact (ih (i + 1)).send_then

theorem issues_meetEach (target : NodeState) (ns : List NodeState) (met : Nat) :
    Wire.Issues (meetEach target ns met) (met + ns.length)
      (ns.flatMap (introductions target)) := by
  induction ns generalizing met with
  | nil => exact Wire.Issues.pure met
  | cons n rest ih =>
    have hrest := ih (met + 1)
    rw [Nat.add_right_comm, Nat.add_assoc] at hrest
    exact ((Wire.Issues.send _).mapErr _).bind (((Wire.Issues.send _).mapErr _).bind hrest)

theorem epochsAbove_nodup (target : NodeState) (i count : Nat) :
    (epochsAbove target i count).Nodup := by
  refine List.Nodup.map ?_ List.nodup_range'
  intro a b hab
  dsimp only at hab
  omega

theorem lt_of_mem_epochsAbove {target : NodeState} {i count : Nat} {e : Int}
    (h : e ∈ epochsAbove target i count) : target.currentEpoch < e := by
  obtain ⟨k, -, rfl⟩ := List.mem_map.mp h
  omega

theorem mem_isolatedPendingNodes :
    n ∈ isolatedPendingNodes S (newClusterState scraped) ↔
      n ∈ scraped ∧ n.isPending = true ∧ n.isIsolated = true := by
  unfold isolatedPendingNodes sortByAddr
  rw [S.mem_sort, (newClusterState_groups scraped).2, List.mem_filter, List.mem_filter, and_assoc]

/-- A target that is not the first isolated node is none of them: the primary of a shard
was not set aside, and the other pending nodes have joined. -/
theorem meetTarget_spec (h : isolatedPendingNodes S (newClusterState scraped) ≠ []) :
    ∃ target ∈ scraped,
      meetTarget (newClusterState scraped) (isolatedPendingNodes S (newClusterState scraped)) =
        some target ∧
      ((isolatedPendingNodes S (newClusterState scraped)).head? = some target ∨
        target ∉ isolatedPendingNodes S (newClusterState scraped)) := by
  unfold meetTarget
  cases hprimary : (newClusterState scraped).shards.findSome? ShardState.primary with
  | some p =>
    obtain ⟨s, hs, hp⟩ := List.exists_of_findSome?_eq_some hprimary
    refine ⟨p, mem_of_shard_primary hs hp, rfl, .inr fun hmem => ?_⟩
    obtain ⟨id, -, -, rfl⟩ := mem_newClusterState_shards.mp hs
    unfold ShardState.primary at hp
    rw [shardOf_nodes] at hp
    have hgrouped := (mem_shardNodes.mp (List.mem_of_find?_eq_some hp)).2.1
    rw [(mem_isolatedPendingNodes.mp hmem).2.1] at hgrouped
    cases hgrouped
  | none =>
    dsimp only
    cases hjoined : (newClusterState scraped).pendingNodes.find? fun n => !n.isIsolated with
    | some n =>
      have hn := List.mem_of_find?_eq_some hjoined
      rw [(newClusterState_groups scraped).2] at hn
      refine ⟨n, (List.mem_filter.mp hn).1, rfl, .inr fun hmem => ?_⟩
      have hout := List.find?_some hjoined
      rw [(mem_isolatedPendingNodes.mp hmem).2.2] at hout
      cases hout
    | none =>
      obtain ⟨n, rest, hcons⟩ := List.exists_cons_of_ne_nil h
      rw [hcons]
      refine ⟨n, (mem_isolatedPendingNodes.mp (hcons ▸ List.mem_cons_self)).1, rfl, .inl rfl⟩

/-- Among nodes at hosts of their own no introduction goes to the node it names. -/
theorem introductions_apart {target : NodeState}
    (h : hostFromAddr n.addr ≠ hostFromAddr target.addr) {c : NodeState × Command}
    (hc : c ∈ introductions target n) : c.2 ≠ .meet (hostFromAddr c.1.addr) := by
  rcases List.mem_cons.mp hc with rfl | hc
  · exact fun heq => h (Command.meet.inj heq).symm
  · rw [List.mem_singleton.mp hc]
    exact fun heq => h (Command.meet.inj heq)

/-- If no command fails, one batch introduces all isolated nodes to the target in both
directions, with pairwise distinct config epochs above the target's. The entry of the target
itself is left out; where no two nodes were scraped at one host, no engine is sent its own. -/
theorem meetIsolatedNodes_joins_all (S : Sorter NodeState) (scraped : List NodeState)
    (h : ∃ n ∈ (newClusterState scraped).pendingNodes, n.isIsolated = true) :
    let isolated := isolatedPendingNodes S (newClusterState scraped)
    isolated.Perm ((newClusterState scraped).pendingNodes.filter NodeState.isIsolated) ∧
    ∃ target ∈ scraped, meetTarget (newClusterState scraped) isolated = some target ∧
    ∃ others, (isolated = target :: others ∨ isolated = others ∧ target ∉ isolated) ∧
    ∃ epochs : List Int, epochs.length = isolated.length ∧ epochs.Nodup ∧
      (∀ e ∈ epochs, target.currentEpoch < e) ∧
      (meetIsolatedNodes S (newClusterState scraped)).Returns ⟨[], []⟩ others.length
        ⟨isolated.zipWith (fun n e => (n, .setConfigEpoch e)) epochs ++
          others.flatMap (introductions target), []⟩ ∧
      ((scraped.map fun n => hostFromAddr n.addr).Nodup →
        ∀ c ∈ others.flatMap (introductions target), c.2 ≠ .meet (hostFromAddr c.1.addr)) := by
  intro isolated
  have hperm : isolated.Perm ((newClusterState scraped).pendingNodes.filter NodeState.isIsolated) :=
    S.perm _ _
  have hsome : isolated ≠ [] := by
    obtain ⟨n, hn, hisolated⟩ := h
    exact List.ne_nil_of_mem (hperm.mem_iff.mpr (List.mem_filter.mpr ⟨hn, hisolated⟩))
  obtain ⟨target, htarget, hmeet, hplace⟩ := meetTarget_spec hsome
  have hrun : ∀ others, (if isolated.head? = some target then isolated.tail else isolated) = others →
      (meetIsolatedNodes S (newClusterState scraped)).Returns ⟨[], []⟩ others.length
        ⟨isolated.zipWith (fun n e => (n, .setConfigEpoch e)) (epochsAbove target 0 isolated.length) ++
          others.flatMap (introductions target), []⟩ := by
    rintro others rfl
    unfold meetIsolatedNodes
    dsimp only
    rw [if_neg hsome, hmeet]
    have hmet := issues_meetEach target
      (if isolated.head? = some target then isolated.tail else isolated) 0
    rw [Nat.zero_add] at hmet
    exact ((issues_bumpConfigEpochs target isolated 0).bind (f := fun _ => meetEach target _ 0)
      hmet).all []
  have hhosts : (scraped.map fun n => hostFromAddr n.addr).Nodup →
      (isolated.map fun n => hostFromAddr n.addr).Nodup := by
    intro hnodup
    rw [(newClusterState_groups scraped).2] at hperm
    refine (hperm.map _).nodup_iff.mpr (hnodup.sublist ?_)
    exact (List.filter_sublist.trans List.filter_sublist).map _
  refine ⟨hperm, target, htarget, hmeet, ?_⟩
  rcases hplace with hhead | hout
  · obtain ⟨rest, hcons⟩ := List.head?_eq_some_iff.mp hhead
    refine ⟨rest, .inl hcons, epochsAbove target 0 isolated.length, by simp [epochsAbove],
      epochsAbove_nodup .., fun e he => lt_of_mem_epochsAbove he, hrun rest ?_, fun hnodup c hc => ?_⟩
    · rw [if_pos hhead]
      exact congrArg List.tail hcons
    · obtain ⟨n, hn, hc⟩ := List.mem_flatMap.mp hc
      have hdistinct := hhosts hnodup
      rw [show isolated = target :: rest from hcons, List.map_cons, List.nodup_cons] at hdistinct
      exact introductions_apart (fun heq => hdistinct.1 (heq ▸ List.mem_map_of_mem hn)) hc
  · have hhead : ¬ isolated.head? = some target := fun heq => hout (List.mem_of_mem_head? heq)
    refine ⟨isolated, .inr ⟨rfl, hout⟩, epochsAbove target 0 isolated.length, by simp [epochsAbove],
      epochsAbove_nodup .., fun e he => lt_of_mem_epochsAbove he, hrun isolated (if_neg hhead),
      fun hnodup c hc => ?_⟩
    obtain ⟨n, hn, hc⟩ := List.mem_flatMap.mp hc
    refine introductions_apart (fun heq => hout ?_) hc
    have hscraped := (mem_isolatedPendingNodes.mp hn).1
    exact List.inj_on_of_nodup_map hnodup hscraped htarget heq ▸ hn

/-- Two fresh nodes beside a cluster of one. -/
def joiningNodes : List NodeState :=
  [{ id := "c3", shardID := "s3", addr := "10.0.0.3:6379", role := .primary,
     offset := 0, knownNodes := 1 },
   { id := "a1", shardID := "s1", addr := "10.0.0.1:6379", role := .primary,
     offset := 0, slots := [⟨0, 16383⟩], knownNodes := 2, currentEpoch := 4 },
   { id := "b2", shardID := "s2", addr := "10.0.0.2:6379", role := .primary,
     offset := 0, knownNodes := 1 }]

/-- Both get an epoch of their own and are introduced to the node with the slots. -/
theorem meetIsolatedNodes_joins_all_fresh :
    let isolated := isolatedPendingNodes .insertion (newClusterState joiningNodes)
    isolated.map (·.id) = ["b2".toList, "c3"] ∧
    ∃ target ∈ joiningNodes, target.id = "a1" ∧
    ∃ epochs : List Int, epochs.length = 2 ∧ epochs.Nodup ∧
      (∀ e ∈ epochs, target.currentEpoch < e) ∧
      (meetIsolatedNodes .insertion (newClusterState joiningNodes)).Returns ⟨[], []⟩ 2
        ⟨isolated.zipWith (fun n e => (n, .setConfigEpoch e)) epochs ++
          isolated.flatMap (introductions target), []⟩ ∧
      ∀ c ∈ isolated.flatMap (introductions target), c.2 ≠ .meet (hostFromAddr c.1.addr) := by
  intro isolated
  have hids : isolated.map (·.id) = ["b2".toList, "c3"] := by decide +kernel
  have htwo : isolated.length = 2 := by simpa using congrArg List.length hids
  have hchosen : (meetTarget (newClusterState joiningNodes) isolated).map (·.id) =
      some "a1".toList := by decide +kernel
  obtain ⟨-, target, htarget, hmeet, others, hothers, epochs, hlength, hdistinct, habove, hrun,
    hapart⟩ := meetIsolatedNodes_joins_all .insertion joiningNodes (by decide +kernel)
  rw [hmeet] at hchosen
  have hid : target.id = "a1" := Option.some.inj hchosen
  have hothers : isolated = others := by
    rcases hothers with hcons | ⟨heq, -⟩
    · have hhead : target.id :: others.map (·.id) = ["b2".toList, "c3"] := by
        rw [← List.map_cons, ← hcons]
        exact hids
      rw [hid, List.cons.injEq] at hhead
      exact absurd hhead.1 (by decide)
    · exact heq
  subst hothers
  rw [htwo] at hrun
  exact ⟨hids, target, htarget, hid, epochs, hlength.trans htwo, hdistinct, habove, hrun,
    hapart (by decide +kernel)⟩

end ValkeyOperator.Cluster

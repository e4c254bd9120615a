import ValkeyOperator.Cluster.Members
import ValkeyOperator.Lib.Calls
import ValkeyOperator.Lib.Conditions

/-! The status of a cluster (`perconavalkeycluster/status.go`, `verify.go` and the
writers of `controller.go`, `pkg/k8s/status.go`).

The state is a projection of three conditions, Degraded before Ready before
Progressing. A pass changes a copy of the status in memory and writes the whole
copy, as a rule at its end. -/

namespace ValkeyOperator.Cluster
open Text Valkey Api

inductive CondType where
  | ready
  | progressing
  | degraded
  | clusterFormed
  | slotsAssigned
deriving DecidableEq

structure Status where
  /-- none before the first write -/
  state : Option ClusterHealth := none
  reason : Str := []
  message : Str := []
  conditions : List (Condition CondType) := []
  shards : Int := 0
  readyShards : Int := 0
  observedGeneration : Int := 0
  lastObservedCrVersion : Str := []

/-- What the status writers read of the object's metadata. -/
structure ObjectMeta where
  generation : Int
  deleting : Bool

namespace Status

def setCondition (o : ObjectMeta) (type : CondType) (status : Bool) (reason message : Str)
    (s : Status) : Status :=
  { s with conditions := Condition.set ⟨type, status, reason, message, o.generation⟩ s.conditions }

def conditionTrue (s : Status) (type : CondType) : Bool := Condition.isTrue s.conditions type

def deriveState (o : ObjectMeta) (s : Status) : ClusterHealth :=
  if o.deleting then .reconciling
  else if s.conditionTrue .degraded then .degraded
  else if s.conditionTrue .ready then .ready
  else if s.conditionTrue .progressing then
    if s.conditionTrue .clusterFormed then .reconciling else .initializing
  else .failed

/-- The state, and reason and message of the Ready condition. -/
def applyDerivedState (o : ObjectMeta) (s : Status) : Status :=
  match Condition.find s.conditions .ready with
  | some c => { s with state := some (s.deriveState o), reason := c.reason, message := c.message }
  | none => { s with state := some (s.deriveState o) }

/-- The part of the status that other controllers read. -/
def published (s : Status) : ClusterStatus where
  state := s.state.getD .initializing
  reason := s.reason
  conditions := [(.ready, s.conditionTrue .ready), (.slotsAssigned, s.conditionTrue .slotsAssigned),
    (.clusterFormed, s.conditionTrue .clusterFormed)]

@[simp] theorem conditionTrue_setCondition (o : ObjectMeta) (type type' : CondType) (status : Bool)
    (reason message : Str) (s : Status) :
    (s.setCondition o type status reason message).conditionTrue type' =
      if type' = type then status else s.conditionTrue type' :=
  Condition.isTrue_set _ _ _

@[simp] theorem conditionTrue_applyDerivedState (o : ObjectMeta) (s : Status) (type : CondType) :
    (s.applyDerivedState o).conditionTrue type = s.conditionTrue type := by
  unfold applyDerivedState
  split <;> rfl

@[simp] theorem state_applyDerivedState (o : ObjectMeta) (s : Status) :
    (s.applyDerivedState o).state = some (s.deriveState o) := by
  unfold applyDerivedState
  split <;> rfl

@[simp] theorem lastObservedCrVersion_applyDerivedState (o : ObjectMeta) (s : Status) :
    (s.applyDerivedState o).lastObservedCrVersion = s.lastObservedCrVersion := by
  unfold applyDerivedState
  split <;> rfl

/-- Ready and not Degraded: what the state Ready stands for. -/
def serving (s : Status) : Bool := s.conditionTrue .ready && !s.conditionTrue .degraded

@[simp] theorem serving_applyDerivedState (o : ObjectMeta) (s : Status) :
    (s.applyDerivedState o).serving = s.serving := by
  simp [serving]

theorem serving_of_deriveState {o : ObjectMeta} {s : Status} (h : s.deriveState o = .ready) :
    s.serving = true := by
  unfold deriveState at h
  split at h
  · cases h
  split at h
  · cases h
  rename_i hdegraded
  split at h
  · rename_i hready
    simp [serving, hready, hdegraded]
  · split at h
    · split at h <;> cases h
    · cases h

end Status

/-! ## Writing it -/

/-- The stored status and the copy in memory. -/
structure Board where
  stored : Status
  mem : Status

namespace Board

def set (o : ObjectMeta) (type : CondType) (status : Bool) (reason message : Str) (b : Board) :
    Board :=
  { b with mem := b.mem.setCondition o type status reason message }

/-- Write the copy; a write whose answer gets lost is made all the same. -/
def writeStatus (o : ObjectMeta) (fault : Option Fault) (b : Board) : Board × Option Err :=
  let mem := b.mem.applyDerivedState o
  match fault with
  | none => (⟨mem, mem⟩, none)
  | some (.refused e) => (⟨b.stored, mem⟩, some e)
  | some (.lost e) => (⟨mem, mem⟩, some e)

def fail (o : ObjectMeta) (fault : Option Fault) (reason : Str) (e : Err) (b : Board) : Board :=
  ((b.set o .ready false reason e.msg).writeStatus o fault).1

def degrade (o : ObjectMeta) (fault : Option Fault) (reason : Str) (e : Err) (b : Board) : Board :=
  (((b.set o .degraded true reason e.msg).set o .ready false reason e.msg).writeStatus o fault).1

/-- Progressing with a message; Ready stays as it is. -/
def progress (o : ObjectMeta) (fault : Option Fault) (reason message : Str) (b : Board) : Board :=
  ((b.set o .progressing true reason message).writeStatus o fault).1

def progressRequeue (o : ObjectMeta) (fault : Option Fault) (message : Str) (b : Board) : Board :=
  b.progress o fault "AddingNodes" message

def progressingReason (b : Board) : Str :=
  if b.mem.conditionTrue .clusterFormed then "Reconciling" else "Initializing"

theorem writeStatus_stored (o : ObjectMeta) (fault : Option Fault) (b : Board) :
    (b.writeStatus o fault).1.stored = b.stored ∨
      (b.writeStatus o fault).1.stored = b.mem.applyDerivedState o := by
  unfold writeStatus
  split
  · exact .inr rfl
  · exact .inl rfl
  · exact .inr rfl

theorem writeStatus_mem (o : ObjectMeta) (fault : Option Fault) (b : Board) :
    (b.writeStatus o fault).1.mem = b.mem.applyDerivedState o := by
  unfold writeStatus
  split <;> rfl

/-- `P` holds of the stored status and of the copy. -/
structure Both (P : Status → Prop) (b : Board) : Prop where
  stored : P b.stored
  mem : P b.mem

theorem Both.writeStatus {P : Status → Prop} {o : ObjectMeta} {b : Board}
    (hderived : ∀ s, P s → P (s.applyDerivedState o)) (h : b.Both P) (fault : Option Fault) :
    (b.writeStatus o fault).1.Both P := by
  constructor
  · rcases b.writeStatus_stored o fault with hstored | hstored <;> rw [hstored]
    · exact h.stored
    · exact hderived _ h.mem
  · rw [b.writeStatus_mem]
    exact hderived _ h.mem

end Board

/-! ## Verification -/

def slotOwningShards (state : ClusterState) : List ShardState :=
  state.shards.filter fun shard => decide (shard.numSlots > 0)

/-- The slot-owning shards with all their nodes and every replica link up. -/
def countReadyShards (state : ClusterState) (wantPerShard : Int) : Int :=
  (state.shards.filter fun shard =>
    shard.numSlots ≠ 0 && decide (wantPerShard ≤ (shard.nodes.length : Int)) &&
      shard.nodes.all fun n => !(n.isReplica && !n.linkUp)).length

def notReady (o : ObjectMeta) (fault : Option Fault) (reason message : Str) (b : Board) : Board :=
  let b := b.set o .ready false reason message
  ((b.set o .progressing true b.progressingReason message).writeStatus o fault).1

/-- What verification records about shards and slots before it judges them. -/
def recordShards (o : ObjectMeta) (cluster : PerconaValkeyCluster) (state : ClusterState)
    (b : Board) : Board :=
  let covered := state.getUnassignedSlots = []
  let b := { b with mem := { b.mem with
    shards := ((slotOwningShards state).length : Int)
    readyShards := countReadyShards state (1 + cluster.spec.replicas.toInt) } }
  let b := b.set o .slotsAssigned covered
    (if covered then "ClusterHealthy" else "SlotsUnassigned")
    (if covered then "all 16384 slots assigned" else "slots not fully assigned")
  if ((slotOwningShards state).length : Int) ≥ cluster.spec.shards.toInt ∧ covered then
    b.set o .clusterFormed true "ClusterHealthy" "all shards formed and slots assigned"
  else b

/-- The first check that fails, with reason and message. -/
def unverified (cluster : PerconaValkeyCluster) (state : ClusterState) : Option (Str × Str) :=
  if ((slotOwningShards state).length : Int) < cluster.spec.shards.toInt then
    some ("MissingShards", "fewer shards than desired")
  else if state.getUnassignedSlots ≠ [] then
    some ("SlotsUnassigned", "not all 16384 slots assigned")
  else if countReadyShards state (1 + cluster.spec.replicas.toInt) < cluster.spec.shards.toInt then
    some ("MissingReplicas", "a shard is missing its replicas")
  else if !state.isReplicationInSync then
    some ("ReplicationNotInSync", "a replica's master_link_status is not up")
  else none

def verifyAndMarkReady (o : ObjectMeta) (fault : Option Fault) (crVersion : Str)
    (cluster : PerconaValkeyCluster) (state : ClusterState) (b : Board) : Board :=
  let b := recordShards o cluster state b
  match unverified cluster state with
  | some (reason, message) => notReady o fault reason message b
  | none =>
    let healthy := "ClusterHealthy".toList
    let b := b.set o .ready true healthy
      "cluster healthy: all shards, replicas and 16384 slots present".toList
    let b := b.set o .progressing false healthy "converged".toList
    let b := b.set o .degraded false healthy "healthy".toList
    let b := { b with mem := { b.mem with
      observedGeneration := o.generation, lastObservedCrVersion := crVersion } }
    (b.writeStatus o fault).1

end ValkeyOperator.Cluster

import ValkeyOperator.Node.Resources

/-! The status a pass of the node controller derives (`valkeynode/status.go`,
`liveconfig.go`, `util.go` and the conditions of `persistence.go`).

A node is ready when its single pod is Ready, its volume is bound and large
enough, and the live-settable configuration was applied. What the pod was created
from plays no part. -/

namespace ValkeyOperator.Node
open Text Valkey Api

/-! ## Conditions -/

/-- Replace the condition of the same type, or append it. -/
def setStatusCondition (c : NodeCondition) : List NodeCondition → List NodeCondition
  | [] => [c]
  | d :: rest => if d.type = c.type then c :: rest else d :: setStatusCondition c rest

def setCondition (node : ValkeyNode) (type : NodeConditionType) (status : Bool)
    (reason message : Str) : ValkeyNode :=
  { node with status := { node.status with
      conditions := setStatusCondition ⟨type, status, reason, message, node.generation⟩
        node.status.conditions } }

def conditionTrue (node : ValkeyNode) (type : NodeConditionType) : Bool :=
  match node.status.conditions.find? fun c => c.type = type with
  | some c => c.status
  | none => false

/-! ## The volume -/

inductive ClaimPhase where
  | pending
  | bound
  | lost
deriving DecidableEq

def ClaimPhase.text : ClaimPhase → Str
  | .pending => "Pending"
  | .bound => "Bound"
  | .lost => "Lost"

inductive ClaimConditionType where
  | controllerResizeError
  | nodeResizeError
  | resizing
  | fileSystemResizePending
  | other
deriving DecidableEq

inductive AllocatedResourceStatus where
  | controllerResizeInfeasible
  | nodeResizeInfeasible
  | controllerResizeInProgress
  | nodeResizeInProgress
  | nodeResizePending
deriving DecidableEq

structure PersistentVolumeClaim where
  name : Str
  /-- none before the claim's controller has seen it -/
  phase : Option ClaimPhase := none
  conditions : List (ClaimConditionType × Str) := []
  allocated : Option AllocatedResourceStatus := none
  capacity : Option Quantity := none

def reasonPVCPending : Str := "PersistentVolumeClaimPending"
def reasonPVCBound : Str := "PersistentVolumeClaimBound"
def reasonResizeInProgress : Str := "PersistentVolumeClaimResizeInProgress"
def reasonResizeInfeasible : Str := "PersistentVolumeClaimResizeInfeasible"
def reasonResizePending : Str := "PersistentVolumeClaimResizePending"
def reasonResizeSatisfied : Str := "PersistentVolumeClaimSizeSatisfied"
def reasonPersistenceDisabled : Str := "PersistenceDisabled"

def claimText (name what : Str) : Str :=
  "PersistentVolumeClaim " ++ name ++ ' ' :: what

def pvcReadyCondition : Option PersistentVolumeClaim → Bool × Str × Str
  | none => (false, reasonPVCPending, "PersistentVolumeClaim does not exist yet")
  | some pvc =>
    if pvc.phase ≠ some .bound then
      (false, reasonPVCPending, claimText pvc.name ("is " ++ (pvc.phase.getD .pending).text))
    else (true, reasonPVCBound, claimText pvc.name "is bound")

def resizeMessage (msg name fallback : Str) : Str :=
  if msg ≠ [] then msg else claimText name fallback

/-- The first resize condition of the claim, with what it reports. -/
def resizeCondition (name : Str) : List (ClaimConditionType × Str) → Option (Str × Str)
  | [] => none
  | (.controllerResizeError, msg) :: _ | (.nodeResizeError, msg) :: _ =>
    some (reasonResizeInfeasible, resizeMessage msg name "resize failed")
  | (.resizing, msg) :: _ =>
    some (reasonResizeInProgress, resizeMessage msg name "resize is in progress")
  | (.fileSystemResizePending, msg) :: _ =>
    some (reasonResizePending, resizeMessage msg name "awaiting filesystem resize")
  | (.other, _) :: rest => resizeCondition name rest

def allocatedCondition (name : Str) : AllocatedResourceStatus → Str × Str
  | .controllerResizeInfeasible | .nodeResizeInfeasible =>
    (reasonResizeInfeasible, claimText name "resize cannot be satisfied")
  | .controllerResizeInProgress | .nodeResizeInProgress =>
    (reasonResizeInProgress, claimText name "resize is in progress")
  | .nodeResizePending => (reasonResizePending, claimText name "awaiting node-side resize")

/-- Whether the volume has the size asked for; `size` is the one of the spec. -/
def pvcSizeReadyCondition (size : Quantity) : Option PersistentVolumeClaim → Bool × Str × Str
  | none => (false, reasonResizePending, "PersistentVolumeClaim does not exist yet")
  | some pvc =>
    if pvc.phase ≠ some .bound then
      (false, reasonResizePending, claimText pvc.name "not bound yet")
    else
      match resizeCondition pvc.name pvc.conditions with
      | some reported => (false, reported)
      | none =>
        match pvc.allocated with
        | some status => (false, allocatedCondition pvc.name status)
        | none =>
          match pvc.capacity with
          | none =>
            (false, reasonResizePending, claimText pvc.name "has no reported capacity yet")
          | some capacity =>
            if capacity.amount < size.amount then
              (false, reasonResizePending, claimText pvc.name
                ("requested " ++ size.text ++ " but capacity is " ++ capacity.text))
            else
              (true, reasonResizeSatisfied,
                claimText pvc.name ("satisfies requested size " ++ size.text))

/-- Both volume conditions from the live claim; without persistence they hold. -/
def setPVCConditions (node : ValkeyNode) (pvc : Except Err (Option PersistentVolumeClaim)) :
    Except Err ValkeyNode :=
  match node.spec.persistence with
  | none =>
    let off := "persistence disabled".toList
    .ok (setCondition (setCondition node .pvcReady true reasonPersistenceDisabled off)
      .pvcSizeReady true reasonPersistenceDisabled off)
  | some persistence =>
    match pvc with
    | .error e => .error e
    | .ok pvc =>
      let (rs, rr, rm) := pvcReadyCondition pvc
      let (ss, sr, sm) := pvcSizeReadyCondition persistence.size pvc
      .ok (setCondition (setCondition node .pvcReady rs rr rm) .pvcSizeReady ss sr sm)

/-! ## Live configuration -/

def liveSettableKeys : List Str :=
  ["maxclients", "maxmemory", "maxmemory-policy"]

/-- The live-settable part of the configuration, in a fixed order. -/
def pendingLiveConfig (node : ValkeyNode) : List (Str × Str) :=
  liveSettableKeys.filterMap fun key => (node.spec.config.lookup key).map fun value => (key, value)

/-- The first CONFIG SET that fails, with its error. -/
def failedConfigSet (configSet : Str → Str → Option Err) (pending : List (Str × Str)) :
    Option (Str × Str × Err) :=
  pending.findSome? fun kv => (configSet kv.1 kv.2).map fun e => (kv.1, kv.2, e)

/-- Apply the pending keys one after the other up to the first failure. -/
def applyLiveConfig (configSet : Str → Str → Option Err) (node : ValkeyNode) :
    ValkeyNode × Option Err :=
  let pending := pendingLiveConfig node
  if pending = [] then
    (setCondition node .liveConfigApplied true "NoLiveKeys"
      "no live-settable keys in spec.config", none)
  else
    match failedConfigSet configSet pending with
    | some (key, value, e) =>
      (setCondition node .liveConfigApplied false "ApplyFailed"
        ("CONFIG SET " ++ key ++ '=' :: quote value ++ ": " ++ e.msg),
        some (Err.wrap ("apply live config " ++ key) e))
    | none =>
      (setCondition node .liveConfigApplied true "Applied"
        ("applied " ++ itoa pending.length ++ " live-settable key(s)"), none)

/-! ## The pod -/

/-- A pod of the node: what it was created from, and what the cluster reports. -/
structure Pod where
  name : Str
  ip : Str := []
  template : PodTemplate
  ready : Bool := false

/-- The pod of the node; of none or several, none. -/
def getManagedPod : List Pod → Option Pod
  | [pod] => some pod
  | _ => none

def isPodReady : Option Pod → Bool
  | some pod => pod.ready
  | none => false

def refreshInMemoryStatus (node : ValkeyNode) (pod : Option Pod) : ValkeyNode :=
  match pod with
  | none =>
    { node with status := { node.status with podName := [], podIP := [], ready := false } }
  | some p =>
    { node with status := { node.status with podName := p.name, podIP := p.ip, ready := p.ready } }

def roleFromInfo (info : StrMap) : Option NodeRole :=
  if info.get "role" = "master" then some .primary
  else if info.get "role" = "slave" then some .replica
  else none

/-- The Ready condition and the status fields behind it; the role is read only
from the engine of a Ready pod, over the connection `info`. -/
def deriveStatus (node : ValkeyNode) (pod : Option Pod) (info : Option (Except Err StrMap)) :
    Except Err ValkeyNode :=
  match pod with
  | none =>
    .ok (setCondition
      { node with status := { node.status with
          podName := [], podIP := [], ready := false, role := none } }
      .ready false "PodNotReady" "pod does not exist yet")
  | some p =>
    let role : Except Err (Option NodeRole) :=
      match p.ready, info with
      | true, some (.error e) => .error (Err.wrap "read INFO replication" e)
      | true, some (.ok repl) => .ok (roleFromInfo repl)
      | _, _ => .ok node.status.role
    match role with
    | .error e => .error e
    | .ok role =>
      let gatesOK := conditionTrue node .pvcReady && conditionTrue node .pvcSizeReady &&
        conditionTrue node .liveConfigApplied
      let node := { node with status := { node.status with
        podName := p.name, podIP := p.ip, role := role, ready := p.ready && gatesOK } }
      .ok (if p.ready && gatesOK then
          setCondition node .ready true "Ready" "pod is running and ready"
        else if !p.ready then
          setCondition node .ready false "PodNotReady" "pod is not ready"
        else
          setCondition node .ready false "GatesNotMet" "pod ready but gating conditions not met")

/-! ## What stays as it was read -/

/-- `b` is `a` with other conditions and pod fields. -/
structure Refreshed (a b : ValkeyNode) : Prop where
  generation : b.generation = a.generation
  spec : b.spec = a.spec
  observed : b.status.observedGeneration = a.status.observedGeneration

theorem Refreshed.refl (a : ValkeyNode) : Refreshed a a := ⟨rfl, rfl, rfl⟩

theorem Refreshed.trans {a b c : ValkeyNode} (h : Refreshed a b) (h' : Refreshed b c) :
    Refreshed a c :=
  ⟨h'.generation.trans h.generation, h'.spec.trans h.spec, h'.observed.trans h.observed⟩

theorem refreshed_setCondition (node : ValkeyNode) (type : NodeConditionType) (status : Bool)
    (reason message : Str) : Refreshed node (setCondition node type status reason message) :=
  ⟨rfl, rfl, rfl⟩

theorem refreshed_setPVCConditions {node node' : ValkeyNode}
    {pvc : Except Err (Option PersistentVolumeClaim)} (h : setPVCConditions node pvc = .ok node') :
    Refreshed node node' := by
  unfold setPVCConditions at h
  split at h
  · cases h
    exact (refreshed_setCondition ..).trans (refreshed_setCondition ..)
  · split at h
    · cases h
    · cases h
      exact (refreshed_setCondition ..).trans (refreshed_setCondition ..)

theorem refreshed_inMemoryStatus (node : ValkeyNode) (pod : Option Pod) :
    Refreshed node (refreshInMemoryStatus node pod) := by
  cases pod <;> exact ⟨rfl, rfl, rfl⟩

theorem refreshed_applyLiveConfig (configSet : Str → Str → Option Err) (node : ValkeyNode) :
    Refreshed node (applyLiveConfig configSet node).1 := by
  unfold applyLiveConfig
  dsimp only
  split
  · exact refreshed_setCondition ..
  · split <;> exact refreshed_setCondition ..

/-- Only a Ready pod makes a node ready. -/
theorem deriveStatus_spec {node node' : ValkeyNode} {pod : Option Pod}
    {info : Option (Except Err StrMap)} (h : deriveStatus node pod info = .ok node') :
    Refreshed node node' ∧ (node'.status.ready = true → isPodReady pod = true) := by
  unfold deriveStatus at h
  split at h
  · cases h
    exact ⟨⟨rfl, rfl, rfl⟩, fun hready => nomatch hready⟩
  · rename_i p
    dsimp only at h
    split at h
    · cases h
    · rw [Except.ok.injEq] at h
      subst h
      constructor
      · split
        · exact ⟨rfl, rfl, rfl⟩
        · split <;> exact ⟨rfl, rfl, rfl⟩
      · intro hready
        have hboth : (p.ready && (conditionTrue node .pvcReady && conditionTrue node .pvcSizeReady &&
            conditionTrue node .liveConfigApplied)) = true := by
          split at hready
          · exact hready
          · split at hready <;> exact hready
        exact (Bool.and_eq_true_iff.mp hboth).1

end ValkeyOperator.Node

import ValkeyOperator.Cluster.Announce
import ValkeyOperator.Cluster.Recovery
import ValkeyOperator.Cluster.ScaleIn
import ValkeyOperator.Cluster.Status
import ValkeyOperator.Cluster.VersionGate
import ValkeyOperator.Lib.Stages

/-! One pass of the cluster controller (`perconavalkeycluster/controller.go`,
`finalizer.go`, `rebalance.go` and the recovery of `recovery.go`).

The phases come in a fixed order, and the first one that has something to do or
fails ends the pass. What a phase meets outside the model is an input: the answers
of the API server and of the engines, and what becomes of the bootstrap join. -/

namespace ValkeyOperator.Cluster
open Text Valkey Api
open Backup (LeaseWorld)

variable {w : ClusterWorld} {o : ObjectMeta} {env : PassInputs} {s s' : PassState}

/-! ## What a pass meets -/

/-- The phases that only set up objects; an error ends the pass. -/
inductive InfraPhase where
  | service
  | expose
  | podDisruptionBudget
  | networkPolicy
  | usersACL
  | configMap
  | nodeList
deriving DecidableEq

def InfraPhase.reason : InfraPhase → Str
  | .service => "ServiceError"
  | .expose => "ExposeError"
  | .podDisruptionBudget => "PodDisruptionBudgetError"
  | .networkPolicy => "NetworkPolicyError"
  | .usersACL => "UsersAclError"
  | .configMap => "ConfigMapError"
  | .nodeList => "ValkeyNodeListError"

/-- What becomes of the bootstrap join. -/
inductive JoinOutcome where
  | nothing
  | progressed (message : Str)
  | failed (reason : Str) (e : Err)
deriving DecidableEq

inductive MigrateReply where
  | ok
  /-- the slots have moved already -/
  | notServed
  | failed (e : Err)

structure PassInputs where
  nodeSorter : Sorter ValkeyNode := .insertion
  stateSorter : Sorter NodeState := .insertion
  /-- version of the running operator -/
  operator : Str
  defaults : Option Err := none
  finalizerPatch : Option Err := none
  /-- the image that the version service asks for -/
  versionCheck : Except Err (Option Str) := .ok none
  phase : InfraPhase → Option Err := fun _ => none
  announce : AnnounceEnv
  tls : Option Err := none
  /-- the engine in a node's pod, and whether it answers -/
  engine : Str → NodeState × Bool
  leaseFault : Option Fault := none
  gateList : Option Err := none
  failover : FailoverInputs := {}
  /-- the one write of the node stepping -/
  nodeWrite : Option Err := none
  takeover : Str → Option Err := fun _ => none
  forgetReplies : List (Option Err) := []
  join : JoinOutcome := .nothing
  delete : Option Err := none
  /-- whether the source of a move reports a migration in progress -/
  migrations : Except Err Bool := .ok false
  migrate : MigrateReply := .ok
  teardown : Option Err := none
  /-- the status writes within the node stepping, and the last one -/
  innerWrite : Option Fault := none
  statusWrite : Option Fault := none

/-- The nodes with the engines a pass finds in their pods. -/
def PassInputs.members (env : PassInputs) (nodes : List ValkeyNode) : List Member :=
  nodes.map fun n => { node := n, engine := (env.engine n.name).1, answers := (env.engine n.name).2 }

def PassInputs.scrape (env : PassInputs) (nodes : List ValkeyNode) : Option ClusterState :=
  getValkeyClusterState (env.members nodes)

/-- What a pass does to nodes or engines: a write it has made, or a command it has
sent. -/
inductive Effect where
  | none
  | create (key : NodeKey)
  | stamp (node : ValkeyNode)
  | takeover
  | forget
  | join
  | delete (node : ValkeyNode)
  | migrate (move : Move)

/-- The stored objects and the copies a pass works on. -/
structure PassState where
  board : Board
  cluster : PerconaValkeyCluster
  finalizers : Bool
  nodes : List ValkeyNode
  /-- names of the nodes that are being deleted -/
  leaving : List Str

/-- The end of a pass, with the engines' state it has looked at. -/
structure PassEnd where
  pass : PassState
  effect : Effect := .none
  seen : Option ClusterState := none

/-- What all passes work on. -/
structure ClusterWorld where
  cluster : PerconaValkeyCluster
  crVersion : Str
  generation : Int := 1
  deleting : Bool := false
  finalizers : Bool := false
  status : Status := {}
  configHash : Str
  nodes : List ValkeyNode := []
  leaving : List Str := []
  lease : LeaseWorld

def ClusterWorld.objectMeta (w : ClusterWorld) : ObjectMeta := ⟨w.generation, w.deleting⟩

def ClusterWorld.start (w : ClusterWorld) : PassState where
  board := ⟨w.status, w.status⟩
  cluster := w.cluster
  finalizers := w.finalizers
  nodes := w.nodes
  leaving := w.leaving

/-- The contract version a pass works with. -/
def ClusterWorld.contract (env : PassInputs) (w : ClusterWorld) : Str :=
  stampCrVersion env.operator w.crVersion

section Phases

variable (env : PassInputs) (o : ObjectMeta)

def PassState.fail (reason : Str) (e : Err) (s : PassState) : PassState :=
  { s with board := s.board.fail o env.statusWrite reason e }

def PassState.degrade (reason : Str) (e : Err) (s : PassState) : PassState :=
  { s with board := s.board.degrade o env.statusWrite reason e }

def PassState.progressRequeue (message : Str) (s : PassState) : PassState :=
  { s with board := s.board.progressRequeue o env.statusWrite message }

/-! ## Before the pipeline -/

def gateStage (crVersion : Str) (s : PassState) : Staged PassEnd PassState :=
  match env.defaults with
  | some e => .error { pass := s.fail env o "ConfigMapError" e }
  | none =>
    match reconcileVersionGate env.operator crVersion s.board.mem.lastObservedCrVersion with
    | .accepted => .ok s
    | .unsupported message =>
      .error { pass := s.fail env o "UnsupportedCRVersion" { msg := message } }
    | .refused reason message => .error { pass := s.degrade env o reason { msg := message } }

/-- Highest shard first, within a shard the highest node index. -/
def byTeardown (a b : ValkeyNode) : Int :=
  if shardIndexOf a ≠ shardIndexOf b then shardIndexOf b - shardIndexOf a
  else nodeIndexOf b - nodeIndexOf a

/-- The first node that is not being deleted yet, else the first. -/
def nextTeardownNode (S : Sorter ValkeyNode) (nodes : List ValkeyNode) (leaving : List Str) :
    Option ValkeyNode :=
  let ordered := S.sort byTeardown nodes
  match ordered.find? fun n => !leaving.contains n.name with
  | some n => some n
  | none => ordered.head?

/-- Ask for the deletion of a node; it goes away later. -/
def PassState.delete (n : ValkeyNode) (s : PassState) : PassState :=
  match env.delete with
  | some _ => s
  | none => { s with leaving := n.name :: s.leaving }

def deleteEffect (n : ValkeyNode) : Effect :=
  match env.delete with
  | some _ => .none
  | none => .delete n

def handleDeletion (s : PassState) : PassEnd :=
  if !s.finalizers then { pass := s }
  else
    match env.phase .nodeList with
    | some e => { pass := s.fail env o InfraPhase.nodeList.reason e }
    | none =>
      match nextTeardownNode env.nodeSorter s.nodes s.leaving with
      | some n =>
        if s.leaving.contains n.name then { pass := s }
        else { pass := s.delete env n, effect := deleteEffect env n }
      | none =>
        match env.teardown with
        | some _ => { pass := s }
        | none => { pass := { s with finalizers := false } }

def finalizerStage (s : PassState) : Staged PassEnd PassState :=
  match env.finalizerPatch with
  | some e => .error {
      pass := s.fail env o "Reconciling" (e.wrap "add cluster finalizers") }
  | none => .ok { s with finalizers := true }

/-- An image that the version service asks for is written to the cluster. -/
def versionCheckStage (s : PassState) : Staged PassEnd PassState :=
  match env.versionCheck with
  | .error e => .error { pass := s.fail env o "VersionCheckFailed" e }
  | .ok none => .ok s
  | .ok (some image) =>
    .ok { s with cluster := { s.cluster with spec := { s.cluster.spec with image := image } } }

/-! ## Infrastructure and nodes -/

def phaseStage (phase : InfraPhase) (s : PassState) : Staged PassEnd PassState :=
  match env.phase phase with
  | some e => .error { pass := s.fail env o phase.reason e }
  | none => .ok s

def announceStage (s : PassState) : Staged PassEnd PassState :=
  match reconcileExposeAnnounce env.announce s.cluster s.nodes with
  | (nodes, some e) =>
    .error { pass := ({ s with nodes := nodes } : PassState).fail env o InfraPhase.expose.reason e }
  | (nodes, none) => .ok { s with nodes := nodes }

def tlsStage (s : PassState) : Staged PassEnd PassState :=
  match env.tls with
  | some e => .error { pass := s.degrade env o "TLSError" e }
  | none => .ok s

/-- The phases before the node stepping. -/
def infraStage (s : PassState) : Staged PassEnd PassState := do
  let s ← phaseStage env o .service s
  let s ← phaseStage env o .expose s
  let s ← announceStage env o s
  let s ← phaseStage env o .podDisruptionBudget s
  let s ← phaseStage env o .networkPolicy s
  let s ← phaseStage env o .usersACL s
  let s ← tlsStage env o s
  let s ← phaseStage env o .configMap s
  phaseStage env o .nodeList s

/-- What `rollNextNode` comes to. -/
inductive RollReport where
  | gated
  | midRoll
  | held (reason : Str)
  | refused (message : Str)
  | noCandidate
  | failoverFailed (e : Err)
  | failoverPending
  /-- the target, and whether a failover was made for it -/
  | stamps (target : ValkeyNode) (failedOver : Bool)

def rollReport (S : Sorter ValkeyNode) (r : RollInputs) (cluster : PerconaValkeyCluster)
    (nodes : List ValkeyNode) (state : Option ClusterState) (configHash : Str) : RollReport :=
  if shouldGateEngineRoll cluster then .gated
  else if (midRollNode cluster nodes configHash).isSome then .midRoll
  else
    match reconcileSmartUpdate r.gate cluster nodes state with
    | .hold reason => .held reason
    | .refuse message => .refused message
    | .allow =>
      match nextRollCandidate S cluster nodes state configHash with
      | none => .noCandidate
      | some target =>
        match failoverOf r.failover state target with
        | none => .stamps target false
        | some (_, .error e) => .failoverFailed e
        | some (_, .ok false) => .failoverPending
        | some (_, .ok true) => .stamps target true

/-- The engines have been asked for their state. -/
def RollReport.looked : RollReport → Bool
  | .gated | .midRoll => false
  | _ => true

def deferredMessage (reason : Str) : Str := "engine roll deferred: " ++ reason

/-- The conditions a roll sets on its way, and the error it returns. -/
def RollReport.note (b : Board) : RollReport → Board × Option Err
  | .gated => (b.set o .progressing true "Reconciling" "roll gated by backup/restore",
      none)
  | .midRoll | .noCandidate => (b, none)
  | .held reason =>
    (b.set o .progressing true "Reconciling" (deferredMessage reason)).writeStatus o env.innerWrite
  | .refused message =>
    ((b.set o .degraded true unsupportedDowngrade message).set o .progressing true
      "Reconciling" (deferredMessage unsupportedDowngrade)).writeStatus o env.innerWrite
  | .failoverFailed e => (b, some e)
  | .failoverPending =>
    (b.set o .degraded true "FailoverPending"
      "deferring primary roll until a synced replica is promoted").writeStatus o
      env.innerWrite
  | .stamps target failedOver =>
    (if failedOver then
      b.set o .degraded false "Reconciling" "failover complete"
    else b, env.nodeWrite.map (Err.wrap ("stamp roll on " ++ target.name)))

/-- The status behind a node stepping that asks to come back, or fails. -/
def steppingBoard (noted : Board × Option Err) : Board :=
  match noted.2 with
  | some e => noted.1.fail o env.statusWrite "UpdatingNodes" e
  | none =>
    let b := noted.1.set o .progressing true noted.1.progressingReason
      "creating/updating ValkeyNodes one-at-a-time"
    let b := b.set o .ready false "UpdatingNodes" "ValkeyNodes not yet converged"
    (b.writeStatus o env.statusWrite).1

def rollInputs (lease : LeaseWorld) (b : Board) : RollInputs where
  gate := {
    lease := lease
    leaseFault := env.leaseFault
    degraded := b.mem.conditionTrue .degraded
    listErr := env.gateList }
  failover := env.failover
  write := env.nodeWrite

/-- The node stepping of the pass. -/
def PassState.stepEnv (lease : LeaseWorld) (configHash : Str) (s : PassState) : StepEnv :=
  (rollInputs env lease s.board).stepEnv env.nodeSorter s.cluster s.nodes (env.scrape s.nodes)
    configHash

def nodeStage (lease : LeaseWorld) (configHash : Str) (s : PassState) :
    Staged PassEnd PassState :=
  let step := s.stepEnv env lease configHash
  let stepped : PassState := { s with
    nodes := (reconcileValkeyNodes env.nodeSorter step s.cluster s.nodes configHash).after s.nodes }
  match stepDecision env.nodeSorter step s.cluster s.nodes configHash with
  | .done => .ok s
  | .wait => .error { pass := { s with board := steppingBoard env o (s.board, none) } }
  | .create key => .error {
      pass := { stepped with board := steppingBoard env o (s.board, env.nodeWrite) }
      effect := .create key }
  | .roll _ =>
    let report := rollReport env.nodeSorter (rollInputs env lease s.board) s.cluster s.nodes
      (env.scrape s.nodes) configHash
    .error {
      pass := { stepped with board := steppingBoard env o (report.note env o s.board) }
      effect :=
        match stepTarget env.nodeSorter step s.cluster s.nodes configHash with
        | some target => .stamp target
        | none => .none
      seen := if report.looked then env.scrape s.nodes else none }

/-! ## Recovery, join and scaling -/

def scrapeStage (s : PassState) : Staged PassEnd ClusterState :=
  match env.scrape s.nodes with
  | some state => .ok state
  | none =>
    let b := s.board.set o .progressing true "Initializing" "waiting for node podIPs"
    let b := b.set o .ready false "Initializing" "no ready nodes to scrape yet"
    .error { pass := { s with board := (b.writeStatus o env.statusWrite).1 } }

/-- Take over for each failed primary that has a replica; the loop stops at the
first command that fails. -/
def takeOverEach (state : ClusterState) : List NodeState → Bool → Bool × Option Err
  | [], acted => (acted, none)
  | primary :: rest, acted =>
    match state.bestReplicaOf primary.id with
    | none => takeOverEach state rest acted
    | some rep =>
      match env.takeover rep.id with
      | some e => (acted, some (e.wrap ("CLUSTER FAILOVER TAKEOVER on " ++ rep.id)))
      | none => takeOverEach state rest true

def promoteOrphanedReplicas (cluster : PerconaValkeyCluster) (state : ClusterState) :
    Bool × Option Err :=
  if cluster.spec.persistence.isSome then (false, none)
  else if state.hasFailoverQuorum then (false, none)
  else takeOverEach env state state.failedPrimaries false

def recoverStage (state : ClusterState) (s : PassState) : Staged PassEnd PassState :=
  match promoteOrphanedReplicas env s.cluster state with
  | (_, some e) =>
    .error { pass := s.degrade env o "QuorumLost" e, effect := .takeover, seen := some state }
  | (true, none) => .error {
      pass := s.progressRequeue env o "promoting orphaned replicas"
      effect := .takeover, seen := some state }
  | (false, none) =>
    match (forgetStaleNodes s.cluster state s.nodes).outcome { replies := env.forgetReplies } with
    | .error e => .error {
        pass := s.fail env o "NodeForgetFailed" e, effect := .forget, seen := some state }
    | .ok true => .error {
        pass := s.progressRequeue env o "forgetting stale nodes"
        effect := .forget, seen := some state }
    | .ok false => .ok s

def joinStage (state : ClusterState) (s : PassState) : Staged PassEnd PassState :=
  match env.join with
  | .nothing => .ok s
  | .progressed message => .error {
      pass := s.progressRequeue env o message, effect := .join, seen := some state }
  | .failed reason e => .error { pass := s.fail env o reason e, effect := .join, seen := some state }

inductive MigrateOutcome where
  /-- a guard, or slots that have moved already -/
  | waiting
  | moved
  | failed (e : Err)

/-- Whether MIGRATESLOTS is sent, and what comes of it. -/
def migrateSlots (state : ClusterState) (move : Move) : Bool × MigrateOutcome :=
  match state.nodeByID move.srcID with
  | none => (false, .waiting)
  | some src =>
    if !state.gossipVisible move.srcID move.dstID then (false, .waiting)
    else
      match env.migrations with
      | .error e => (false, .failed (e.wrap ("CLUSTER GETSLOTMIGRATIONS " ++ src.addr)))
      | .ok true => (false, .waiting)
      | .ok false =>
        match env.migrate with
        | .ok => (true, .moved)
        | .notServed => (true, .waiting)
        | .failed e => (true, .failed e)

/-- Carry out one move: `onProgress` reports it, a failure is reported with the
reason and the context given. -/
def moveEnd (state : ClusterState) (move : Move) (onProgress : PassState → PassState)
    (reason context : Str) (s : PassState) : PassEnd where
  pass :=
    match (migrateSlots env state move).2 with
    | .failed e => s.fail env o reason (e.wrap context)
    | _ => onProgress s
  effect := if (migrateSlots env state move).1 then .migrate move else .none
  seen := some state

def scalingIn : Str := "scaling in: draining/deleting excess shards"

def deleteEnd (state : ClusterState) (n : ValkeyNode) (context : Str) (s : PassState) :
    PassEnd where
  pass :=
    match env.delete with
    | some e => s.fail env o "DrainFailed" (e.wrap (context ++ n.name))
    | none => (s.delete env n).progressRequeue env o scalingIn
  effect := deleteEffect env n
  seen := some state

def PassState.rebalancing (s : PassState) : PassState :=
  { s with
    board := s.board.progress o env.statusWrite "RebalancingSlots"
      "rebalancing slots across shards" }

def scaleStage (state : ClusterState) (s : PassState) : Staged PassEnd PassState :=
  match handleScaleIn env.nodeSorter env.stateSorter s.cluster state s.nodes with
  | .deleteReplica n => .error (deleteEnd env o state n "delete surplus replica " s)
  | .deleteDrained n => .error (deleteEnd env o state n "delete excess ValkeyNode " s)
  | .migrate move => .error (moveEnd env o state move (PassState.progressRequeue env o scalingIn)
      "DrainFailed" "scale-in drain" s)
  | .nothing =>
    match planRebalanceMove env.stateSorter state s.cluster.spec.shards.toInt with
    | none => .ok s
    | some move => .error (moveEnd env o state move (PassState.rebalancing env o)
        "RebalanceFailed" "rebalance migrate" s)

/-! ## The whole pass -/

/-- From the node stepping on. -/
def nodesOnward (lease : LeaseWorld) (configHash crVersion : Str) (s : PassState) :
    Staged PassEnd PassEnd := do
  let s ← nodeStage env o lease configHash s
  let state ← scrapeStage env o s
  let s ← recoverStage env o state s
  let s ← joinStage env o state s
  let s ← scaleStage env o state s
  let verified := verifyAndMarkReady o env.statusWrite crVersion s.cluster state s.board
  pure { pass := { s with board := verified }, seen := some state }

end Phases

/-- What comes before the node stepping. -/
def ClusterWorld.opening (env : PassInputs) (w : ClusterWorld) : Staged PassEnd PassState := do
  let s ← gateStage env w.objectMeta (w.contract env) w.start
  if w.deleting then .error (handleDeletion env w.objectMeta s)
  else do
    let s ← finalizerStage env w.objectMeta s
    let s ← versionCheckStage env w.objectMeta s
    infraStage env w.objectMeta s

/-- One pass over the world. -/
def ClusterWorld.reconcile (env : PassInputs) (w : ClusterWorld) : PassEnd :=
  Staged.result do
    let s ← w.opening env
    nodesOnward env w.objectMeta w.lease w.configHash (w.contract env) s

/-- The world behind a pass; writing an image of the version service is an edit. -/
def ClusterWorld.after (w : ClusterWorld) (e : PassEnd) : ClusterWorld :=
  { w with
    cluster := e.pass.cluster
    generation := if e.pass.cluster.spec = w.cluster.spec then w.generation else w.generation + 1
    finalizers := e.pass.finalizers
    status := e.pass.board.stored
    nodes := e.pass.nodes
    leaving := e.pass.leaving }

/-! ## Runs -/

inductive ClusterEvent where
  /-- a change of the spec, with the roll hash of the configuration it renders -/
  | edit (spec : ClusterSpec) (crVersion configHash : Str)
  | annotate (annotations : StrMap)
  | markDeleted
  /-- the nodes report their status -/
  | report (status : ValkeyNode → ValkeyNodeStatus)
  | vanish (keep : ValkeyNode → Bool)
  | leaseChange (lease : LeaseWorld)
  | pass (env : PassInputs)

def ClusterWorld.step (w : ClusterWorld) : ClusterEvent → ClusterWorld
  | .edit spec crVersion configHash =>
    { w with
      cluster := { w.cluster with spec := spec }
      crVersion := crVersion, configHash := configHash, generation := w.generation + 1 }
  | .annotate annotations => { w with cluster := { w.cluster with annotations := annotations } }
  | .markDeleted => { w with deleting := true, generation := w.generation + 1 }
  | .report status => { w with nodes := w.nodes.map fun n => { n with status := status n } }
  | .vanish keep => { w with nodes := w.nodes.filter keep }
  | .leaseChange lease => { w with lease := lease }
  | .pass env => w.after (w.reconcile env)

/-! ## How far a pass gets -/

/-- The cluster as the node stepping sees it. -/
def ClusterWorld.wanted (env : PassInputs) (w : ClusterWorld) : PerconaValkeyCluster :=
  match env.versionCheck with
  | .ok (some image) => { w.cluster with spec := { w.cluster.spec with image := image } }
  | _ => w.cluster

/-- The nodes as the node stepping lists them. -/
def ClusterWorld.listed (env : PassInputs) (w : ClusterWorld) : List ValkeyNode :=
  (reconcileExposeAnnounce env.announce (w.wanted env) w.nodes).1

/-- Nothing ends the pass before the node stepping. -/
structure ReachesNodes (env : PassInputs) (w : ClusterWorld) : Prop where
  defaults : env.defaults = none
  accepted : reconcileVersionGate env.operator (w.contract env) w.status.lastObservedCrVersion =
    .accepted
  alive : w.deleting = false
  finalizers : env.finalizerPatch = none
  versionCheck : ∃ image, env.versionCheck = .ok image
  phases : ∀ phase, env.phase phase = none
  announced : (reconcileExposeAnnounce env.announce (w.wanted env) w.nodes).2 = none
  tls : env.tls = none

/-- The pass as the node stepping finds it. -/
def ClusterWorld.opened (env : PassInputs) (w : ClusterWorld) : PassState :=
  { w.start with cluster := w.wanted env, finalizers := true, nodes := w.listed env }

theorem phaseStage_eq_ok {phase : InfraPhase} :
    phaseStage env o phase s = .ok s' ↔ env.phase phase = none ∧ s' = s := by
  unfold phaseStage
  cases env.phase phase <;> simp [eq_comm]

theorem announceStage_eq_ok :
    announceStage env o s = .ok s' ↔
      (reconcileExposeAnnounce env.announce s.cluster s.nodes).2 = none ∧
      s' = { s with nodes := (reconcileExposeAnnounce env.announce s.cluster s.nodes).1 } := by
  unfold announceStage
  rcases reconcileExposeAnnounce env.announce s.cluster s.nodes with ⟨nodes, _ | e⟩ <;>
    simp [eq_comm]

theorem tlsStage_eq_ok : tlsStage env o s = .ok s' ↔ env.tls = none ∧ s' = s := by
  unfold tlsStage
  cases env.tls <;> simp [eq_comm]

theorem infraStage_eq_ok :
    infraStage env o s = .ok s' ↔
      (∀ phase, env.phase phase = none) ∧ env.tls = none ∧
      (reconcileExposeAnnounce env.announce s.cluster s.nodes).2 = none ∧
      s' = { s with nodes := (reconcileExposeAnnounce env.announce s.cluster s.nodes).1 } := by
  unfold infraStage
  simp only [Staged.bind_eq_ok, phaseStage_eq_ok, announceStage_eq_ok, tlsStage_eq_ok]
  constructor
  · rintro ⟨_, ⟨hservice, rfl⟩, _, ⟨hexpose, rfl⟩, _, ⟨hannounced, rfl⟩, _, ⟨hpdb, rfl⟩, _,
      ⟨hpolicy, rfl⟩, _, ⟨husers, rfl⟩, _, ⟨htls, rfl⟩, _, ⟨hconfig, rfl⟩, hlist, rfl⟩
    refine ⟨fun phase => ?_, htls, hannounced, rfl⟩
    cases phase <;> assumption
  · rintro ⟨hphases, htls, hannounced, rfl⟩
    exact ⟨_, ⟨hphases _, rfl⟩, _, ⟨hphases _, rfl⟩, _, ⟨hannounced, rfl⟩, _, ⟨hphases _, rfl⟩, _,
      ⟨hphases _, rfl⟩, _, ⟨hphases _, rfl⟩, _, ⟨htls, rfl⟩, _, ⟨hphases _, rfl⟩, hphases _, rfl⟩

theorem gateStage_eq_ok {crVersion : Str} :
    gateStage env o crVersion s = .ok s' ↔
      env.defaults = none ∧
      reconcileVersionGate env.operator crVersion s.board.mem.lastObservedCrVersion = .accepted ∧
      s' = s := by
  unfold gateStage
  cases env.defaults with
  | some e => simp
  | none =>
    cases reconcileVersionGate env.operator crVersion s.board.mem.lastObservedCrVersion <;>
      simp [eq_comm]

theorem finalizerStage_eq_ok :
    finalizerStage env o s = .ok s' ↔
      env.finalizerPatch = none ∧ s' = { s with finalizers := true } := by
  unfold finalizerStage
  cases env.finalizerPatch <;> simp [eq_comm]

theorem versionCheckStage_eq_ok (hs : s.cluster = w.cluster) :
    versionCheckStage env o s = .ok s' ↔
      (∃ image, env.versionCheck = .ok image) ∧ s' = { s with cluster := w.wanted env } := by
  unfold versionCheckStage ClusterWorld.wanted
  obtain ⟨board, cluster, finalizers, nodes, leaving⟩ := s
  subst hs
  rcases env.versionCheck with e | _ | image <;> simp [eq_comm]

/-- The node stepping is reached exactly when nothing ends the pass before it. -/
theorem opening_eq_ok : w.opening env = .ok s ↔ ReachesNodes env w ∧ s = w.opened env := by
  unfold ClusterWorld.opening
  rw [Staged.bind_eq_ok]
  constructor
  · rintro ⟨_, hgate, hrest⟩
    obtain ⟨hdefaults, haccepted, rfl⟩ := gateStage_eq_ok.mp hgate
    split at hrest
    · cases hrest
    · rename_i halive
      obtain ⟨_, hfinal, hrest⟩ := Staged.bind_eq_ok.mp hrest
      obtain ⟨hfinalizers, rfl⟩ := finalizerStage_eq_ok.mp hfinal
      obtain ⟨_, hcheck, hinfra⟩ := Staged.bind_eq_ok.mp hrest
      obtain ⟨hversion, rfl⟩ := (versionCheckStage_eq_ok (w := w) rfl).mp hcheck
      obtain ⟨hphases, htls, hannounced, rfl⟩ := infraStage_eq_ok.mp hinfra
      exact ⟨⟨hdefaults, haccepted, by simpa using halive, hfinalizers, hversion, hphases,
        hannounced, htls⟩, rfl⟩
  · rintro ⟨h, rfl⟩
    refine ⟨w.start, gateStage_eq_ok.mpr ⟨h.defaults, h.accepted, rfl⟩, ?_⟩
    rw [if_neg (by simp [h.alive])]
    refine Staged.bind_eq_ok.mpr ⟨_, finalizerStage_eq_ok.mpr ⟨h.finalizers, rfl⟩, ?_⟩
    refine Staged.bind_eq_ok.mpr ⟨_, (versionCheckStage_eq_ok (w := w) rfl).mpr
      ⟨h.versionCheck, rfl⟩, ?_⟩
    exact infraStage_eq_ok.mpr ⟨h.phases, h.tls, h.announced, rfl⟩

/-! ## The node stepping -/

/-- The decision a report amounts to. -/
def RollReport.decision : RollReport → RollDecision
  | .gated | .midRoll | .held _ | .refused _ | .noCandidate | .failoverPending => .hold
  | .failoverFailed e => .fail e
  | .stamps target _ => .stamp target

/-- The report tells in more detail what the node stepping decides. -/
theorem rollReport_decision (S : Sorter ValkeyNode) (r : RollInputs)
    (cluster : PerconaValkeyCluster) (nodes : List ValkeyNode) (state : Option ClusterState)
    (configHash : Str) :
    (rollReport S r cluster nodes state configHash).decision =
      rollNextNode S (r.stepEnv S cluster nodes state configHash) cluster nodes configHash := by
  unfold rollReport rollNextNode
  split
  · rfl
  split
  · rfl
  cases hgate : reconcileSmartUpdate r.gate cluster nodes state with
  | hold reason => simp [RollInputs.stepEnv, hgate, RollReport.decision]
  | refuse message => simp [RollInputs.stepEnv, hgate, RollReport.decision]
  | allow =>
    have hallowed : (r.stepEnv S cluster nodes state configHash).smartUpdate = true := by
      simp [RollInputs.stepEnv, hgate]
    simp only [hallowed, Bool.not_true, Bool.false_eq_true, if_false]
    change _ = match nextRollCandidate S cluster nodes state configHash with
      | none => RollDecision.hold
      | some target => rollNode (r.stepEnv S cluster nodes state configHash) target
    cases hnext : nextRollCandidate S cluster nodes state configHash with
    | none => rfl
    | some target =>
      have hmade : (r.stepEnv S cluster nodes state configHash).failover =
          (failoverOf r.failover state target).elim (.ok true) (·.2) := by
        simp only [RollInputs.stepEnv, hnext, Option.bind_some]
      have hstate : (r.stepEnv S cluster nodes state configHash).state = state := rfl
      dsimp only
      unfold rollNode
      rw [hmade, hstate]
      cases state with
      | none => rfl
      | some state =>
        unfold failoverOf
        cases liveStateOf (some state) target with
        | none => rfl
        | some live =>
          by_cases hprimary : live.isPrimary = true
          · simp only [hprimary, if_true]
            rcases proactiveFailover r.failover state live.shardID with e | _ | _ <;> rfl
          · simp only [hprimary]
            rfl

/-! ## What the phases leave behind -/

/-- How a phase that ends the pass leaves the status; Degraded is set only for a
`cause`. -/
inductive Recorded (env : PassInputs) (o : ObjectMeta) (b : Board) (cause : Prop) : Board → Prop
  | untouched : Recorded env o b cause b
  | failed (reason : Str) (e : Err) : Recorded env o b cause (b.fail o env.statusWrite reason e)
  | degraded (reason : Str) (e : Err) (h : cause) :
      Recorded env o b cause (b.degrade o env.statusWrite reason e)
  | progressed (reason message : Str) :
      Recorded env o b cause (b.progress o env.statusWrite reason message)

/-- The pass ends without having looked at the engines or done anything. -/
structure Halted (env : PassInputs) (o : ObjectMeta) (b : Board) (cause : Prop) (e : PassEnd) :
    Prop where
  effect : e.effect = .none
  seen : e.seen = none
  board : Recorded env o b cause e.pass.board

/-- What the phases before the node stepping report as Degraded: a refused
contract version, or an error of the TLS phase. -/
def OpeningDegrades (env : PassInputs) (w : ClusterWorld) : Prop :=
  env.tls ≠ none ∨ ∃ reason message,
    reconcileVersionGate env.operator (w.contract env) w.status.lastObservedCrVersion =
      .refused reason message

section Opening

variable (env : PassInputs) (w : ClusterWorld)

/-- The phase halts the pass, or goes on and leaves the status alone. -/
def Halting (x : Staged PassEnd PassState) : Prop :=
  x.Ensures (Halted env w.objectMeta w.start.board (OpeningDegrades env w))
    fun s => s.board = w.start.board

theorem gateStage_halts (hs : s.board = w.start.board) :
    Halting env w (gateStage env w.objectMeta (w.contract env) s) := by
  unfold gateStage
  split
  · exact ⟨rfl, rfl, hs ▸ .failed _ _⟩
  · split
    · exact hs
    · exact ⟨rfl, rfl, hs ▸ .failed _ _⟩
    · rename_i reason message hrefused
      rw [hs] at hrefused
      exact ⟨rfl, rfl, hs ▸ .degraded _ _ (.inr ⟨reason, message, hrefused⟩)⟩

theorem finalizerStage_halts (hs : s.board = w.start.board) :
    Halting env w (finalizerStage env w.objectMeta s) := by
  unfold finalizerStage
  split
  · exact ⟨rfl, rfl, hs ▸ .failed _ _⟩
  · exact hs

theorem versionCheckStage_halts (hs : s.board = w.start.board) :
    Halting env w (versionCheckStage env w.objectMeta s) := by
  unfold versionCheckStage
  split
  · exact ⟨rfl, rfl, hs ▸ .failed _ _⟩
  · exact hs
  · exact hs

theorem phaseStage_halts (phase : InfraPhase) (hs : s.board = w.start.board) :
    Halting env w (phaseStage env w.objectMeta phase s) := by
  unfold phaseStage
  split
  · exact ⟨rfl, rfl, hs ▸ .failed _ _⟩
  · exact hs

theorem announceStage_halts (hs : s.board = w.start.board) :
    Halting env w (announceStage env w.objectMeta s) := by
  unfold announceStage
  split
  · exact ⟨rfl, rfl, hs ▸ .failed _ _⟩
  · exact hs

theorem tlsStage_halts (hs : s.board = w.start.board) :
    Halting env w (tlsStage env w.objectMeta s) := by
  unfold tlsStage
  split
  · rename_i e htls
    exact ⟨rfl, rfl, hs ▸ .degraded _ _ (.inl (by simp [htls]))⟩
  · exact hs

theorem infraStage_halts (hs : s.board = w.start.board) :
    Halting env w (infraStage env w.objectMeta s) := by
  unfold infraStage
  refine (phaseStage_halts env w _ hs).bind fun s hs => ?_
  refine (phaseStage_halts env w _ hs).bind fun s hs => ?_
  refine (announceStage_halts env w hs).bind fun s hs => ?_
  refine (phaseStage_halts env w _ hs).bind fun s hs => ?_
  refine (phaseStage_halts env w _ hs).bind fun s hs => ?_
  refine (phaseStage_halts env w _ hs).bind fun s hs => ?_
  refine (tlsStage_halts env w hs).bind fun s hs => ?_
  refine (phaseStage_halts env w _ hs).bind fun s hs => ?_
  exact phaseStage_halts env w _ hs

/-- The pass asks for the deletion of `n` in the course of the teardown. -/
structure TeardownDue (n : ValkeyNode) : Prop where
  defaults : env.defaults = none
  accepted : reconcileVersionGate env.operator (w.contract env) w.status.lastObservedCrVersion =
    .accepted
  deleting : w.deleting = true
  finalizers : w.finalizers = true
  listed : env.phase .nodeList = none
  next : nextTeardownNode env.nodeSorter w.nodes w.leaving = some n
  fresh : w.leaving.contains n.name = false
  made : env.delete = none

/-- The deletion of a node for which the teardown has asked. -/
structure TornDown (n : ValkeyNode) (e : PassEnd) : Prop where
  due : TeardownDue env w n
  effect : e.effect = .delete n
  seen : e.seen = none
  board : e.pass.board = w.start.board

variable {env w}

theorem handleDeletion_ends
    (hgate : gateStage env w.objectMeta (w.contract env) w.start = .ok w.start)
    (hdeleting : w.deleting = true) {e : PassEnd} (he : handleDeletion env w.objectMeta w.start = e) :
    (Halted env w.objectMeta w.start.board (OpeningDegrades env w) e ∧ ∀ n, ¬ TeardownDue env w n) ∨
      ∃ n, TornDown env w n e := by
  obtain ⟨hdefaults, haccepted, -⟩ := gateStage_eq_ok.mp hgate
  subst he
  unfold handleDeletion
  split
  · rename_i hnone
    exact .inl ⟨⟨rfl, rfl, .untouched⟩, fun n h => by simp [ClusterWorld.start, h.finalizers] at hnone⟩
  rename_i hfinalizers
  split
  · rename_i err herr
    exact .inl ⟨⟨rfl, rfl, .failed _ _⟩, fun n h => by simp [h.listed] at herr⟩
  rename_i hlist
  split
  · rename_i n hnext
    split
    · rename_i hleaving
      refine .inl ⟨⟨rfl, rfl, .untouched⟩, fun m h => ?_⟩
      have hsame : m = n := Option.some.inj (h.next.symm.trans hnext)
      rw [← hsame] at hleaving
      exact absurd (h.fresh.symm.trans hleaving) Bool.false_ne_true
    · rename_i hleaving
      cases hmade : env.delete with
      | some err =>
        refine .inl ⟨⟨by simp [deleteEffect, hmade], rfl, ?_⟩, fun m h => ?_⟩
        · simp only [PassState.delete, hmade]
          exact .untouched
        · exact absurd h.made (by simp [hmade])
      | none =>
        refine .inr ⟨n, ⟨hdefaults, haccepted, hdeleting,
          by simpa [ClusterWorld.start] using hfinalizers, hlist, hnext,
          Bool.eq_false_iff.mpr hleaving, hmade⟩, by simp [deleteEffect, hmade], rfl, ?_⟩
        simp only [PassState.delete, hmade]
  · rename_i hnone
    have hnot : ∀ n, ¬ TeardownDue env w n := by
      intro n h
      exact absurd (h.next.symm.trans hnone) (by simp)
    split
    · exact .inl ⟨⟨rfl, rfl, .untouched⟩, hnot⟩
    · exact .inl ⟨⟨rfl, rfl, .untouched⟩, hnot⟩

/-- A pass that does not reach the node stepping halts, or deletes a node in the
course of the teardown. -/
theorem opening_ends {e : PassEnd} (h : w.opening env = .error e) :
    (Halted env w.objectMeta w.start.board (OpeningDegrades env w) e ∧ ∀ n, ¬ TeardownDue env w n) ∨
      ∃ n, TornDown env w n e := by
  have hstart : w.start.board = w.start.board := rfl
  unfold ClusterWorld.opening at h
  cases hgate : gateStage env w.objectMeta (w.contract env) w.start with
  | error e' =>
    have hhalted := gateStage_halts env w hstart
    rw [hgate] at h hhalted
    cases h
    refine .inl ⟨hhalted, fun n hdue => ?_⟩
    rw [gateStage_eq_ok.mpr ⟨hdue.defaults, hdue.accepted, rfl⟩] at hgate
    cases hgate
  | ok s =>
    obtain ⟨-, -, rfl⟩ := gateStage_eq_ok.mp hgate
    rw [hgate] at h
    change (if w.deleting = true then _ else _) = _ at h
    split at h
    · rename_i hdeleting
      exact handleDeletion_ends hgate hdeleting (Except.error.inj h)
    · rename_i halive
      have hhalted : Halting env w (do
          let s ← finalizerStage env w.objectMeta w.start
          let s ← versionCheckStage env w.objectMeta s
          infraStage env w.objectMeta s) := by
        refine (finalizerStage_halts env w hstart).bind fun s hs => ?_
        refine (versionCheckStage_halts env w hs).bind fun s hs => ?_
        exact infraStage_halts env w hs
      rw [h] at hhalted
      exact .inl ⟨hhalted, fun n hdue => halive hdue.deleting⟩

end Opening

/-! ## From the node stepping on -/

section Onward

variable (env : PassInputs) (o : ObjectMeta) (lease : LeaseWorld) (configHash : Str) (s : PassState)

/-- What the conditions may have been before the last write of a node stepping. -/
inductive Noted : Board × Option Err → Prop
  | waiting : Noted (s.board, none)
  | creating : Noted (s.board, env.nodeWrite)
  | rolling {decision : RollDecision} (h : stepDecision env.nodeSorter
        (s.stepEnv env lease configHash) s.cluster s.nodes configHash = .roll decision) :
      Noted ((rollReport env.nodeSorter (rollInputs env lease s.board) s.cluster s.nodes
        (env.scrape s.nodes) configHash).note env o s.board)

/-- The pass ends with the node stepping. -/
structure Stepped (e : PassEnd) : Prop where
  left : stepDecision env.nodeSorter (s.stepEnv env lease configHash) s.cluster s.nodes configHash ≠
    .done
  effect : (∃ t, stepTarget env.nodeSorter (s.stepEnv env lease configHash) s.cluster s.nodes
      configHash = some t ∧ e.effect = .stamp t) ∨
    stepTarget env.nodeSorter (s.stepEnv env lease configHash) s.cluster s.nodes configHash = none ∧
      (e.effect = .none ∨ ∃ key, e.effect = .create key)
  seen : e.seen = none ∨ e.seen = env.scrape s.nodes
  board : ∃ noted, Noted env o lease configHash s noted ∧ e.pass.board = steppingBoard env o noted

theorem stepTarget_of_ne_roll {S : Sorter ValkeyNode} {step : StepEnv}
    {cluster : PerconaValkeyCluster} {nodes : List ValkeyNode}
    (h : ∀ decision, stepDecision S step cluster nodes configHash ≠ .roll decision) :
    stepTarget S step cluster nodes configHash = none := by
  unfold stepTarget
  split
  · rfl
  · split
    · exact absurd ‹_› (h _)
    · rfl

theorem nodeStage_ends :
    (nodeStage env o lease configHash s).Ensures (Stepped env o lease configHash s) fun s' =>
      s' = s ∧ stepDecision env.nodeSorter (s.stepEnv env lease configHash) s.cluster s.nodes
        configHash = .done := by
  unfold nodeStage
  dsimp only
  split
  · exact ⟨rfl, ‹_›⟩
  · rename_i hdecision
    exact ⟨by simp [hdecision], .inr ⟨stepTarget_of_ne_roll _ (by simp [hdecision]), .inl rfl⟩,
      .inl rfl, _, .waiting, rfl⟩
  · rename_i key hdecision
    exact ⟨by simp [hdecision], .inr ⟨stepTarget_of_ne_roll _ (by simp [hdecision]),
      .inr ⟨key, rfl⟩⟩, .inl rfl, _, .creating, rfl⟩
  · rename_i decision hdecision
    refine ⟨by simp [hdecision], ?_, ?_, _, .rolling hdecision, rfl⟩
    · cases htarget : stepTarget env.nodeSorter (s.stepEnv env lease configHash) s.cluster s.nodes
          configHash with
      | some t => exact .inl ⟨t, rfl, rfl⟩
      | none => exact .inr ⟨rfl, .inl rfl⟩
    · dsimp only
      split
      · exact .inr rfl
      · exact .inl rfl

/-- The pass ends because no engine has answered. -/
structure Unscraped (e : PassEnd) : Prop where
  silent : env.scrape s.nodes = none
  effect : e.effect = .none
  seen : e.seen = none
  board : ∃ b : Board, e.pass.board = (b.writeStatus o env.statusWrite).1 ∧
    b.stored = s.board.stored ∧ b.mem.conditionTrue .ready = false ∧
    b.mem.conditionTrue .degraded = s.board.mem.conditionTrue .degraded ∧
    b.mem.lastObservedCrVersion = s.board.mem.lastObservedCrVersion

theorem scrapeStage_ends :
    (scrapeStage env o s).Ensures (Unscraped env o s)
      fun state => env.scrape s.nodes = some state := by
  unfold scrapeStage
  split
  · assumption
  · refine ⟨‹_›, rfl, rfl, _, rfl, rfl, ?_, ?_, rfl⟩
    · simp [Board.set]
    · simp [Board.set]

variable (state : ClusterState)

/-- The pass ends with a phase behind the scrape. -/
structure Acted (cause : Prop) (P : Effect → Prop) (e : PassEnd) : Prop where
  effect : P e.effect
  seen : e.seen = some state
  board : Recorded env o s.board cause e.pass.board

/-- Neither a takeover nor a stale node is due. -/
structure Recovered : Prop where
  promoted : promoteOrphanedReplicas env s.cluster state = (false, none)
  forgotten : (forgetStaleNodes s.cluster state s.nodes).outcome
    { replies := env.forgetReplies } = .ok false

/-- The command that takes over for some failed primary fails. -/
def TakeoverFails : Prop := (promoteOrphanedReplicas env s.cluster state).2 ≠ none

/-- What the recovery does, with its reason. -/
inductive Recovering : Effect → Prop
  | takingOver (hdue : promoteOrphanedReplicas env s.cluster state ≠ (false, none)) :
      Recovering .takeover
  | forgetting (hdue : (forgetStaleNodes s.cluster state s.nodes).outcome
      { replies := env.forgetReplies } ≠ .ok false) : Recovering .forget

theorem Recovering.not_recovered {effect : Effect} (h : Recovering env s state effect) :
    ¬ Recovered env s state := by
  intro hrecovered
  cases h with
  | takingOver hdue => exact hdue hrecovered.promoted
  | forgetting hdue => exact hdue hrecovered.forgotten

theorem recoverStage_ends :
    (recoverStage env o state s).Ensures
      (Acted env o s state (TakeoverFails env s state) (Recovering env s state))
      fun s' => s' = s ∧ Recovered env s state := by
  unfold recoverStage
  split
  · rename_i acted e hpromote
    exact ⟨.takingOver (by simp [hpromote]), rfl, .degraded _ _ (by simp [TakeoverFails, hpromote])⟩
  · rename_i hpromote
    exact ⟨.takingOver (by simp [hpromote]), rfl, .progressed _ _⟩
  · rename_i hpromote
    split
    · rename_i e hforget
      exact ⟨.forgetting (by simp [hforget]), rfl, .failed _ _⟩
    · rename_i hforget
      exact ⟨.forgetting (by simp [hforget]), rfl, .progressed _ _⟩
    · rename_i hforget
      exact ⟨rfl, hpromote, hforget⟩

theorem joinStage_ends :
    (joinStage env o state s).Ensures
      (Acted env o s state False fun effect => effect = .join ∧ env.join ≠ .nothing)
      fun s' => s' = s ∧ env.join = .nothing := by
  unfold joinStage
  split
  · exact ⟨rfl, ‹_›⟩
  · exact ⟨⟨rfl, by simp [*]⟩, rfl, .progressed _ _⟩
  · exact ⟨⟨rfl, by simp [*]⟩, rfl, .failed _ _⟩

/-- The scale-in sets out to delete `n`. -/
def DeletionDue (n : ValkeyNode) : Prop :=
  handleScaleIn env.nodeSorter env.stateSorter s.cluster state s.nodes = .deleteReplica n ∨
    handleScaleIn env.nodeSorter env.stateSorter s.cluster state s.nodes = .deleteDrained n

/-- The scale-in, or with nothing to scale in the rebalancing, sets out to make
the move. -/
def MoveDue (move : Move) : Prop :=
  handleScaleIn env.nodeSorter env.stateSorter s.cluster state s.nodes = .migrate move ∨
    handleScaleIn env.nodeSorter env.stateSorter s.cluster state s.nodes = .nothing ∧
      planRebalanceMove env.stateSorter state s.cluster.spec.shards.toInt = some move

/-- No guard holds the move back. -/
def Sends (move : Move) : Prop :=
  (∃ src, state.nodeByID move.srcID = some src) ∧
    state.gossipVisible move.srcID move.dstID = true ∧ env.migrations = .ok false

/-- What the scaling does. -/
inductive Scaled : Effect → Prop
  | deleted {n : ValkeyNode} (hdue : DeletionDue env s state n) (hmade : env.delete = none) :
      Scaled (.delete n)
  | undeleted {n : ValkeyNode} (hdue : DeletionDue env s state n) (hmade : env.delete ≠ none) :
      Scaled .none
  | moved {move : Move} (hdue : MoveDue env s state move) (hsends : Sends env state move) :
      Scaled (.migrate move)
  | waiting {move : Move} (hdue : MoveDue env s state move) (hsends : ¬ Sends env state move) :
      Scaled .none

theorem migrateSlots_fst {move : Move} :
    (migrateSlots env state move).1 = true ↔ Sends env state move := by
  unfold migrateSlots Sends
  cases state.nodeByID move.srcID with
  | none => simp
  | some src =>
    cases state.gossipVisible move.srcID move.dstID with
    | false => simp
    | true =>
      rcases env.migrations with e | _ | _
      · simp
      · cases env.migrate <;> simp
      · simp

theorem deleteEnd_acted {n : ValkeyNode} (hdue : DeletionDue env s state n) (context : Str) :
    Acted env o s state False (Scaled env s state) (deleteEnd env o state n context s) := by
  cases hmade : env.delete with
  | some e =>
    refine ⟨?_, rfl, ?_⟩
    · simpa [deleteEnd, deleteEffect, hmade] using Scaled.undeleted hdue (by simp [hmade])
    · simp only [deleteEnd, hmade]
      exact .failed _ _
  | none =>
    refine ⟨?_, rfl, ?_⟩
    · simpa [deleteEnd, deleteEffect, hmade] using Scaled.deleted hdue hmade
    · simp only [deleteEnd, hmade, PassState.delete]
      exact .progressed _ _

theorem moveEnd_acted {move : Move} (hdue : MoveDue env s state move)
    {onProgress : PassState → PassState}
    (hprogress : ∃ reason message, (onProgress s).board =
      s.board.progress o env.statusWrite reason message) (reason context : Str) :
    Acted env o s state False (Scaled env s state)
      (moveEnd env o state move onProgress reason context s) := by
  refine ⟨?_, rfl, ?_⟩
  · by_cases hsends : (migrateSlots env state move).1 = true
    · simp only [moveEnd, hsends, if_true]
      exact .moved hdue ((migrateSlots_fst env state).mp hsends)
    · simp only [moveEnd, hsends]
      exact .waiting hdue fun h => hsends ((migrateSlots_fst env state).mpr h)
  · obtain ⟨progressReason, message, hboard⟩ := hprogress
    simp only [moveEnd]
    split
    · exact .failed _ _
    · rw [hboard]
      exact .progressed _ _

theorem scaleStage_ends :
    (scaleStage env o state s).Ensures (Acted env o s state False (Scaled env s state)) fun s' =>
      s' = s ∧ handleScaleIn env.nodeSorter env.stateSorter s.cluster state s.nodes = .nothing ∧
        planRebalanceMove env.stateSorter state s.cluster.spec.shards.toInt = none := by
  unfold scaleStage
  split
  · exact deleteEnd_acted env o s state (.inl ‹_›) _
  · exact deleteEnd_acted env o s state (.inr ‹_›) _
  · exact moveEnd_acted env o s state (.inl ‹_›) ⟨_, _, rfl⟩ _ _
  · rename_i hnothing
    split
    · exact ⟨rfl, hnothing, ‹_›⟩
    · exact moveEnd_acted env o s state (.inr ⟨hnothing, ‹_›⟩) ⟨_, _, rfl⟩ _ _

end Onward

/-! ## All ends of a pass -/

/-- The node stepping is reached and leaves nothing to do. -/
structure ReachesEngines (env : PassInputs) (w : ClusterWorld) : Prop where
  nodes : ReachesNodes env w
  converged : ∀ key ∈ desiredNodes (w.wanted env), ∃ n,
    existing (w.listed env) (keyName (w.wanted env).name key) = some n ∧
      nodeConverged n (w.wanted env) w.configHash = true
  rolled : anyRollPending (w.wanted env) (w.listed env) w.configHash = false

/-- The scaling is reached with the given state of the engines. -/
structure ReachesScaling (env : PassInputs) (w : ClusterWorld) (state : ClusterState) : Prop where
  engines : ReachesEngines env w
  scraped : env.scrape (w.listed env) = some state
  recovered : Recovered env (w.opened env) state
  joined : env.join = .nothing

/-- Every way in which a pass can end, with what has led there. -/
inductive Ended (env : PassInputs) (w : ClusterWorld) : PassEnd → Prop
  | halted {e : PassEnd} (hshort : ¬ ReachesNodes env w) (hnone : ∀ n, ¬ TeardownDue env w n)
      (h : Halted env w.objectMeta w.start.board (OpeningDegrades env w) e) : Ended env w e
  | tornDown {e : PassEnd} {n : ValkeyNode} (h : TornDown env w n e) : Ended env w e
  | stepped {e : PassEnd} (hreach : ReachesNodes env w)
      (h : Stepped env w.objectMeta w.lease w.configHash (w.opened env) e) : Ended env w e
  | unscraped {e : PassEnd} (hreach : ReachesEngines env w)
      (h : Unscraped env w.objectMeta (w.opened env) e) : Ended env w e
  | recovering {e : PassEnd} {state : ClusterState} (hreach : ReachesEngines env w)
      (hstate : env.scrape (w.listed env) = some state)
      (h : Acted env w.objectMeta (w.opened env) state (TakeoverFails env (w.opened env) state)
        (Recovering env (w.opened env) state) e) : Ended env w e
  | joining {e : PassEnd} {state : ClusterState} (hreach : ReachesEngines env w)
      (hstate : env.scrape (w.listed env) = some state)
      (h : Acted env w.objectMeta (w.opened env) state False
        (fun effect => effect = .join ∧ env.join ≠ .nothing) e) : Ended env w e
  | scaling {e : PassEnd} {state : ClusterState} (hreach : ReachesScaling env w state)
      (h : Acted env w.objectMeta (w.opened env) state False (Scaled env (w.opened env) state) e) :
      Ended env w e
  | verified {e : PassEnd} {state : ClusterState} (hreach : ReachesScaling env w state)
      (hscaled : handleScaleIn env.nodeSorter env.stateSorter (w.wanted env) state (w.listed env) =
        .nothing)
      (hbalanced : planRebalanceMove env.stateSorter state (w.wanted env).spec.shards.toInt = none)
      (heffect : e.effect = .none) (hseen : e.seen = some state)
      (hboard : e.pass.board = verifyAndMarkReady w.objectMeta env.statusWrite
        (w.contract env) (w.wanted env) state w.start.board) : Ended env w e

theorem reachesEngines (hreach : ReachesNodes env w)
    (hdone : stepDecision env.nodeSorter ((w.opened env).stepEnv env w.lease w.configHash)
      (w.wanted env) (w.listed env) w.configHash = .done) : ReachesEngines env w := by
  obtain ⟨hconverged, hrolled⟩ := stepDecision_eq_done.mp hdone
  exact ⟨hreach, hconverged, hrolled⟩

theorem reconcile_ended (env : PassInputs) (w : ClusterWorld) : Ended env w (w.reconcile env) := by
  unfold ClusterWorld.reconcile
  cases hopening : w.opening env with
  | error e =>
    have hshort : ¬ ReachesNodes env w := by
      intro hreach
      rw [opening_eq_ok.mpr ⟨hreach, rfl⟩] at hopening
      cases hopening
    change Ended env w e
    rcases opening_ends hopening with ⟨hhalted, hnone⟩ | ⟨n, htorn⟩
    · exact .halted hshort hnone hhalted
    · exact .tornDown htorn
  | ok s =>
    obtain ⟨hreach, rfl⟩ := opening_eq_ok.mp hopening
    change Ended env w (Staged.result (nodesOnward env w.objectMeta w.lease w.configHash
      (w.contract env) (w.opened env)))
    refine Staged.Ensures.result ?_
    unfold nodesOnward
    refine ((nodeStage_ends ..).mono (fun e h => .stepped hreach h) fun _ h => h).bind ?_
    rintro _ ⟨rfl, hdone⟩
    have hengines := reachesEngines hreach hdone
    refine ((scrapeStage_ends ..).mono (fun e h => .unscraped hengines h) fun _ h => h).bind ?_
    intro state hstate
    refine ((recoverStage_ends ..).mono (fun e h => .recovering hengines hstate h)
      fun _ h => h).bind ?_
    rintro _ ⟨rfl, hrecovered⟩
    refine ((joinStage_ends ..).mono (fun e h => .joining hengines hstate h) fun _ h => h).bind ?_
    rintro _ ⟨rfl, hjoined⟩
    have hscaling : ReachesScaling env w state := ⟨hengines, hstate, hrecovered, hjoined⟩
    refine ((scaleStage_ends ..).mono (fun e h => .scaling hscaling h) fun _ h => h).bind ?_
    rintro _ ⟨rfl, hscaled, hbalanced⟩
    exact .verified hscaling hscaled hbalanced rfl rfl rfl

/-- A pass of operator 1.0 without any fault, over the given engines. -/
def quietInputs (engine : Str → NodeState × Bool) : PassInputs where
  operator := "1.0.0"
  announce := { service := fun _ => .ok none, hostIPs := fun _ => .ok [] }
  engine := engine

/-- A primary and its replica. -/
def pairEngines (name : Str) : NodeState × Bool :=
  if name = "prod-0-0" then (pairPrimary, true)
  else (pairReplica, true)

/-- The primaries of two shards; the second one knows the first. -/
def splitEngines (name : Str) : NodeState × Bool :=
  if name = "prod-0-0" then
    ({ id := "a1", shardID := "s1", role := .primary, slots := [⟨0, 8191⟩]
       knownNodes := 2, clusterStateOK := true }, true)
  else
    ({ id := "b2", shardID := "s2", role := .primary, slots := [⟨8192, 16383⟩]
       knownNodes := 2, clusterStateOK := true
       peers := [⟨"a1", ⟨"a1", [], []⟩⟩].toAList }, true)

/-- A node is ready, in its pod. -/
def readyStatus (n : ValkeyNode) : ValkeyNodeStatus where
  observedGeneration := n.generation
  ready := true
  podIP := if n.name = "prod-0-0" then "10.0.0.1" else "10.0.0.2"

/-- The passes over a newly created cluster of two nodes, until it is Ready. -/
def formation (engine : Str → NodeState × Bool) : List ClusterEvent :=
  [.pass (quietInputs engine), .report readyStatus, .pass (quietInputs engine),
    .report readyStatus, .pass (quietInputs engine)]

def freshWorld (spec : ClusterSpec) : ClusterWorld where
  cluster := { pairCluster with spec := spec }
  crVersion := "1.0"
  configHash := "h1"
  lease := noBackup

end ValkeyOperator.Cluster

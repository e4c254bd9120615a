import ValkeyOperator.Backup.Lease
import ValkeyOperator.Cluster.Nodes
import ValkeyOperator.Valkey.Scrape

/-! The engine update gate and the failover before a roll
(`perconavalkeycluster/smartupdate.go`, `failover.go`).

An image roll waits for a healthy cluster without a running backup, and one to a
lower feature line is refused. The policy compares the target with the first
listed node whose image differs, the roll then stamps whichever node is next. A
node that was scraped as a primary is failed over first; one that was not scraped
is stamped as it is. -/

namespace ValkeyOperator.Cluster
open Text Valkey Api
open Backup (LeaseWorld held isBackupRunning isBackupRunning_run)

variable {g : GateInputs} {nodes : List ValkeyNode} {state : Option ClusterState}
  {cluster : PerconaValkeyCluster} {t : ValkeyNode}

/-! ## Engine versions -/

structure EngineVersion where
  major : Int := 0
  minor : Int := 0
  patch : Int := 0
  known : Bool := false
deriving DecidableEq

def parseEngineVersion (image : Str) : EngineVersion :=
  let tag := (cut '-' (image.rtakeWhile (· != ':'))).1
  match atoi (cut '.' tag).1 with
  | .error _ => {}
  | .ok major =>
    match (cut '.' tag).2 with
    | none => { major := major, known := true }
    | some rest =>
      { major := major
        minor := atoiOrZero (cut '.' rest).1
        patch := match (cut '.' rest).2 with | none => 0 | some patch => atoiOrZero patch
        known := true }

inductive EngineChangeKind where
  | none
  | patch
  | minorForward
  | multiMinorJump
  | featureLineDowngrade
deriving DecidableEq

/-- What 64 bits keep of a number. -/
def wrap64 (n : Int) : Int := Int.bmod n (2 ^ 64)

/-- The feature line as one number, the minor version in the last two digits. -/
def EngineVersion.line (v : EngineVersion) : Int := wrap64 (v.major * 100 + v.minor)

def engineJumpWarnMinors : Int := 2

def isMultiLineJump (cur tgt : EngineVersion) : Bool :=
  if wrap64 (tgt.major - cur.major) ≥ engineJumpWarnMinors then true
  else if tgt.major = wrap64 (cur.major + 1) then tgt.minor ≥ engineJumpWarnMinors
  else if tgt.major = cur.major then wrap64 (tgt.minor - cur.minor) ≥ engineJumpWarnMinors
  else false

def classifyEngineChange (current target : Str) : EngineChangeKind :=
  let cur := parseEngineVersion current
  let tgt := parseEngineVersion target
  if !cur.known || !tgt.known then .none
  else if tgt.line < cur.line then .featureLineDowngrade
  else if tgt.line = cur.line then .patch
  else if isMultiLineJump cur tgt then .multiMinorJump
  else .minorForward

/-- The image of the first listed node that carries another one than wanted. -/
def pendingEngineChange (cluster : PerconaValkeyCluster) (nodes : List ValkeyNode) : Option Str :=
  (nodes.find? fun n => n.spec.image ≠ [] && n.spec.image ≠ cluster.spec.image).map (·.spec.image)

/-- The message of a refused downgrade. -/
def applyEngineDowngradePolicy (cluster : PerconaValkeyCluster) (current : Str) : Option Str :=
  if classifyEngineChange current cluster.spec.image = .featureLineDowngrade then
    some ("refusing engine feature-line downgrade " ++ current ++ " -> " ++ cluster.spec.image)
  else none

/-! ## The gate -/

def upgradeGatedBackupRunning : Str := "UpgradeGatedBackupRunning"
def upgradeGatedNotReady : Str := "UpgradeGatedNotReady"
def upgradeGatedSlotsIncomplete : Str := "UpgradeGatedSlotsIncomplete"
def upgradeGatedReplicasUnsynced : Str := "UpgradeGatedReplicasUnsynced"
def unsupportedDowngrade : Str := "UnsupportedDowngrade"

/-- What the gate reads besides the nodes: the lease at the current time, the
Degraded condition, and the errors of its two reads. -/
structure GateInputs where
  lease : LeaseWorld
  leaseFault : Option Fault := none
  degraded : Bool := false
  listErr : Option Err := none

/-- An error reading the lease counts as no backup. -/
def backupRunning (g : GateInputs) (cluster : PerconaValkeyCluster) : Bool :=
  ((isBackupRunning cluster.name g.lease.clock).run (fun w req => w.serve g.leaseFault req)
    g.lease).1.toOption.getD false

/-- The stored lease has a holder and has not expired. -/
def LeaseHeld (lease : LeaseWorld) : Prop :=
  ∃ l, lease.lease.stored = some l ∧ held l lease.clock = true

theorem backupRunning_iff :
    backupRunning g cluster = true ↔ g.leaseFault = none ∧ LeaseHeld g.lease := by
  unfold backupRunning LeaseHeld
  rw [isBackupRunning_run]
  rcases g.leaseFault with _ | e | e
  · cases g.lease.lease.stored <;> simp [Except.toOption]
  · simp [Except.toOption]
  · simp [Except.toOption]

/-- The reason that holds an image roll back, if there is one. -/
def smartUpdateAllowed (g : GateInputs) (cluster : PerconaValkeyCluster)
    (state : Option ClusterState) : Option Str :=
  if backupRunning g cluster then some upgradeGatedBackupRunning
  else if g.degraded then some upgradeGatedNotReady
  else
    match state with
    | none => some upgradeGatedNotReady
    | some s =>
      if s.getUnassignedSlots ≠ [] then some upgradeGatedSlotsIncomplete
      else if s.failedPrimaries ≠ [] then some upgradeGatedNotReady
      else if !s.isReplicationInSync then some upgradeGatedReplicasUnsynced
      else none

inductive GateVerdict where
  | allow
  | hold (reason : Str)
  /-- a refused downgrade, with the message of the Degraded condition it sets -/
  | refuse (message : Str)
deriving DecidableEq

def reconcileSmartUpdate (g : GateInputs) (cluster : PerconaValkeyCluster)
    (nodes : List ValkeyNode) (state : Option ClusterState) : GateVerdict :=
  match g.listErr with
  | some _ => .hold upgradeGatedNotReady
  | none =>
    match pendingEngineChange cluster nodes with
    | none => .allow
    | some current =>
      match applyEngineDowngradePolicy cluster current with
      | some message => .refuse message
      | none =>
        match smartUpdateAllowed g cluster state with
        | some reason => .hold reason
        | none => .allow

/-- The scrape shows all slots owned, no failed primary and every link up. -/
def Healthy (state : Option ClusterState) : Prop :=
  ∃ s, state = some s ∧ s.getUnassignedSlots = [] ∧ s.failedPrimaries = [] ∧
    s.isReplicationInSync = true

theorem smartUpdateAllowed_eq_none :
    smartUpdateAllowed g cluster state = none ↔
      backupRunning g cluster = false ∧ g.degraded = false ∧ Healthy state := by
  unfold smartUpdateAllowed Healthy
  cases backupRunning g cluster with
  | true => simp
  | false =>
    cases g.degraded with
    | true => simp
    | false =>
      cases state with
      | none => simp
      | some s =>
        by_cases hslots : s.getUnassignedSlots = []
        · by_cases hfailed : s.failedPrimaries = []
          · cases s.isReplicationInSync <;> simp [hslots, hfailed]
          · simp [hslots, hfailed]
        · simp [hslots]

theorem reconcileSmartUpdate_eq_allow :
    reconcileSmartUpdate g cluster nodes state = .allow ↔
      g.listErr = none ∧ ∀ current, pendingEngineChange cluster nodes = some current →
        classifyEngineChange current cluster.spec.image ≠ .featureLineDowngrade ∧
        smartUpdateAllowed g cluster state = none := by
  unfold reconcileSmartUpdate applyEngineDowngradePolicy
  cases g.listErr with
  | some e => simp
  | none =>
    cases pendingEngineChange cluster nodes with
    | none => simp
    | some current =>
      by_cases hdown : classifyEngineChange current cluster.spec.image = .featureLineDowngrade
      · simp [hdown]
      · cases smartUpdateAllowed g cluster state <;> simp [hdown]

/-! ## Failing over a primary before its roll -/

/-- How CLUSTER FAILOVER ends on each engine, and whether that engine reports to
be a primary before the poll times out. -/
structure FailoverInputs where
  command : Str → Option Err := fun _ => none
  flips : Str → Bool := fun _ => true

/-- Whether the shard's primary has been demoted. -/
def proactiveFailover (f : FailoverInputs) (state : ClusterState) (shardID : Str) :
    Except Err Bool :=
  match state.primaryByShardID shardID with
  | none => .ok false
  | some primary =>
    match state.highestOffsetReplica primary.id with
    | none => .ok false
    | some target =>
      match f.command target.id with
      | some e => .error e
      | none => .ok (f.flips target.id)

/-- The failover the roll of a node begins with: its shard and how it ends. None
is made for a node that was not scraped, or not as a primary. -/
def failoverOf (f : FailoverInputs) (state : Option ClusterState) (node : ValkeyNode) :
    Option (Str × Except Err Bool) :=
  match state with
  | none => none
  | some s =>
    match liveStateOf state node with
    | none => none
    | some live =>
      if live.isPrimary then some (live.shardID, proactiveFailover f s live.shardID) else none

structure RollInputs where
  gate : GateInputs
  failover : FailoverInputs := {}
  write : Option Err := none

/-- What the stepping meets in a pass with these inputs. -/
def RollInputs.stepEnv (r : RollInputs) (S : Sorter ValkeyNode) (cluster : PerconaValkeyCluster)
    (nodes : List ValkeyNode) (state : Option ClusterState) (configHash : Str) : StepEnv where
  state := state
  smartUpdate := reconcileSmartUpdate r.gate cluster nodes state = .allow
  failover :=
    ((nextRollCandidate S cluster nodes state configHash).bind (failoverOf r.failover state)).elim
      (.ok true) (·.2)
  write := r.write

/-- The node that a pass with these inputs stamps. -/
def rollTarget (S : Sorter ValkeyNode) (r : RollInputs) (cluster : PerconaValkeyCluster)
    (nodes : List ValkeyNode) (state : Option ClusterState) (configHash : Str) :
    Option ValkeyNode :=
  stepTarget S (r.stepEnv S cluster nodes state configHash) cluster nodes configHash

/-- `t` is next, and only the update gate and its failover can hold its roll
back. -/
structure InLine (S : Sorter ValkeyNode) (r : RollInputs) (cluster : PerconaValkeyCluster)
    (nodes : List ValkeyNode) (state : Option ClusterState) (configHash : Str)
    (t : ValkeyNode) : Prop where
  filled : ∀ key ∈ desiredNodes cluster, (existing nodes (keyName cluster.name key)).isSome
  ungated : shouldGateEngineRoll cluster = false
  next : nextRollCandidate S cluster nodes state configHash = some t
  settled : Settled cluster nodes configHash
  writable : r.write = none

/-- The failover of the node, if its roll begins with one, completes. -/
def Promoted (f : FailoverInputs) (state : Option ClusterState) (t : ValkeyNode) : Prop :=
  ∀ shardID outcome, failoverOf f state t = some (shardID, outcome) → outcome = .ok true

theorem failoverOf_eq_some {f : FailoverInputs} {shardID : Str} {outcome : Except Err Bool} :
    failoverOf f state t = some (shardID, outcome) ↔
      ∃ s live, state = some s ∧ liveStateOf state t = some live ∧ live.isPrimary = true ∧
        shardID = live.shardID ∧ outcome = proactiveFailover f s shardID := by
  unfold failoverOf
  cases state with
  | none => simp
  | some s =>
    cases hlive : liveStateOf (some s) t with
    | none => simp
    | some live =>
      by_cases hprimary : live.isPrimary = true
      · simp only [hprimary, if_true, Option.some.injEq, Prod.mk.injEq]
        constructor
        · rintro ⟨rfl, rfl⟩
          exact ⟨s, live, rfl, rfl, hprimary, rfl, rfl⟩
        · rintro ⟨_, _, rfl, rfl, -, rfl, rfl⟩
          exact ⟨rfl, rfl⟩
      · simp [hprimary]

theorem promoted_iff {S : Sorter ValkeyNode} {r : RollInputs} {configHash : Str}
    (hnext : nextRollCandidate S cluster nodes state configHash = some t) :
    (∀ live, liveStateOf state t = some live → live.isPrimary = true →
      (r.stepEnv S cluster nodes state configHash).failover = .ok true) ↔
    Promoted r.failover state t := by
  have hstate : ∀ live, liveStateOf state t = some live → ∃ s, state = some s := by
    intro live hlive
    cases state with
    | none => cases hlive
    | some s => exact ⟨s, rfl⟩
  have hmade : ∀ made, failoverOf r.failover state t = some made →
      (r.stepEnv S cluster nodes state configHash).failover = made.2 := by
    intro made hmade
    simp only [RollInputs.stepEnv, hnext, Option.bind_some, hmade, Option.elim_some]
  constructor
  · intro h shardID outcome hfail
    obtain ⟨s, live, -, hlive, hprimary, -, -⟩ := failoverOf_eq_some.mp hfail
    exact (hmade _ hfail).symm.trans (h live hlive hprimary)
  · intro h live hlive hprimary
    obtain ⟨s, hs⟩ := hstate live hlive
    have hfail : failoverOf r.failover state t =
        some (live.shardID, proactiveFailover r.failover s live.shardID) :=
      failoverOf_eq_some.mpr ⟨s, live, hs, hlive, hprimary, rfl, rfl⟩
    exact (hmade _ hfail).trans (h _ _ hfail)

/-- A node is stamped when it is in line, the gate allows the roll and its
failover is complete. -/
theorem rollTarget_eq_some {S : Sorter ValkeyNode} {r : RollInputs} {configHash : Str} :
    rollTarget S r cluster nodes state configHash = some t ↔
      InLine S r cluster nodes state configHash t ∧
      reconcileSmartUpdate r.gate cluster nodes state = .allow ∧
      Promoted r.failover state t := by
  unfold rollTarget
  rw [stepTarget_eq_some]
  constructor
  · intro h
    obtain ⟨hdue, hsettled⟩ := h
    exact ⟨⟨hdue.filled, hdue.ungated, hdue.next, hsettled, hdue.writable⟩,
      of_decide_eq_true hdue.allowed, (promoted_iff hdue.next).mp hdue.promoted⟩
  · intro h
    obtain ⟨hline, hallowed, hpromoted⟩ := h
    exact ⟨⟨hline.filled, hline.ungated, decide_eq_true hallowed, hline.next,
      (promoted_iff hline.next).mpr hpromoted, hline.writable⟩, hline.settled⟩

/-! ## Rolling a primary -/

/-- A pass stamps a slot-owning primary only after a completed failover of its
shard, if and only if every such primary that is in line for an allowed roll was
scraped as a primary of its shard. (Where its address shows the primary of another
shard, the roll waits as long as that one's failover does not complete.) -/
theorem rollTarget_fails_over_iff (S : Sorter ValkeyNode) (r : RollInputs)
    (cluster : PerconaValkeyCluster) (members : List Member) (configHash : Str) :
    (∀ m ∈ members, m.engine.isPrimary = true → m.Owns →
      rollTarget S r cluster (nodesOf members) (getValkeyClusterState members) configHash =
        some m.node →
      failoverOf r.failover (getValkeyClusterState members) m.node =
        some (m.engine.shardID, .ok true)) ↔
    ∀ m ∈ members, m.engine.isPrimary = true → m.Owns →
      InLine S r cluster (nodesOf members) (getValkeyClusterState members) configHash m.node →
      reconcileSmartUpdate r.gate cluster (nodesOf members) (getValkeyClusterState members) =
        .allow →
      ∃ live, liveStateOf (getValkeyClusterState members) m.node = some live ∧
        live.isPrimary = true ∧
        (live.shardID = m.engine.shardID ∨
          ¬ Promoted r.failover (getValkeyClusterState members) m.node) := by
  generalize getValkeyClusterState members = state
  constructor
  · intro h m hm hprimary howns hline hallowed
    by_cases hpromoted : Promoted r.failover state m.node
    · have hfail := h m hm hprimary howns (rollTarget_eq_some.mpr ⟨hline, hallowed, hpromoted⟩)
      obtain ⟨_, live, -, hlive, hlivePrimary, hshard, -⟩ := failoverOf_eq_some.mp hfail
      exact ⟨live, hlive, hlivePrimary, .inl hshard.symm⟩
    · have hmade : ∃ made, failoverOf r.failover state m.node = some made := by
        by_contra hnone
        exact hpromoted fun shardID outcome hsome => absurd ⟨_, hsome⟩ hnone
      obtain ⟨⟨shardID, outcome⟩, hmade⟩ := hmade
      obtain ⟨_, live, -, hlive, hlivePrimary, -, -⟩ := failoverOf_eq_some.mp hmade
      exact ⟨live, hlive, hlivePrimary, .inr hpromoted⟩
  · intro h m hm hprimary howns htarget
    obtain ⟨hline, hallowed, hpromoted⟩ := rollTarget_eq_some.mp htarget
    obtain ⟨live, hlive, hlivePrimary, hshard | hpending⟩ := h m hm hprimary howns hline hallowed
    · cases state with
      | none => cases hlive
      | some s =>
        have hfail : failoverOf r.failover (some s) m.node =
            some (m.engine.shardID, proactiveFailover r.failover s m.engine.shardID) :=
          failoverOf_eq_some.mpr ⟨s, live, rfl, hlive, hlivePrimary, hshard.symm, rfl⟩
        rw [hfail, hpromoted _ _ hfail]
    · exact absurd hpromoted hpending

/-- One shard with a replica; the configuration has been edited. -/
def pairCluster : PerconaValkeyCluster :=
  { name := "prod", spec := { shards := 1, replicas := 1, image := "valkey:8.1" } }

/-- A ready node at a position of that cluster. -/
def pairNode (node : Int) (configHash image podIP : Str) : ValkeyNode :=
  { buildValkeyNodeSpec { pairCluster with spec := { pairCluster.spec with image := image } }
      ⟨0, node⟩ configHash with
    status := { observedGeneration := 1, ready := true, podIP := podIP } }

def pairReplica : NodeState :=
  { id := "a1", shardID := "s1", primaryID := "b2", linkUp := true
    knownNodes := 2, clusterStateOK := true }

def pairPrimary : NodeState :=
  { id := "b2", shardID := "s1", role := .primary, slots := [⟨0, 16383⟩]
    knownNodes := 2, clusterStateOK := true }

/-- A failover has made the second node the primary; the first one has been rolled
since. The primary does not answer in this pass. -/
def pairFailedOver : List Member :=
  [{ node := pairNode 0 "h2" "valkey:8.1" "10.0.0.1", engine := pairReplica },
    { node := pairNode 1 "h1" "valkey:8.1" "10.0.0.2", engine := pairPrimary,
      answers := false }]

def noBackup : LeaseWorld := { clock := 0, lease := .absent }

/-- The primary of all slots is stamped and no failover is made. -/
theorem rollTarget_skips_failover :
    ∃ m ∈ pairFailedOver, m.engine.isPrimary = true ∧ m.Owns ∧
      rollTarget .insertion { gate := { lease := noBackup } } pairCluster (nodesOf pairFailedOver)
        (getValkeyClusterState pairFailedOver) "h2" = some m.node ∧
      failoverOf {} (getValkeyClusterState pairFailedOver) m.node = none := by
  decide

/-! ## Feature lines -/

/-- The feature line is lower: by the major version, then by the minor one. -/
def EngineVersion.LineBelow (a b : EngineVersion) : Prop :=
  a.known = true ∧ b.known = true ∧ (a.major < b.major ∨ a.major = b.major ∧ a.minor < b.minor)

theorem EngineVersion.LineBelow.irrefl (a : EngineVersion) : ¬ a.LineBelow a := by
  intro h
  obtain ⟨-, -, h⟩ := h
  omega

theorem pendingEngineChange_of_mem {n : ValkeyNode} (hn : n ∈ nodes) (hset : n.spec.image ≠ [])
    (hother : n.spec.image ≠ cluster.spec.image) :
    ∃ current, pendingEngineChange cluster nodes = some current := by
  unfold pendingEngineChange
  cases hfind : nodes.find? fun n => n.spec.image ≠ [] && n.spec.image ≠ cluster.spec.image with
  | none => simpa [hset, hother] using List.find?_eq_none.mp hfind n hn
  | some m => exact ⟨m.spec.image, rfl⟩

/-- No pass stamps a node with a lower feature line than it carries, if and only
if whenever such a node is in line, the first listed node with another image is
above the target as well by the packed number, or the gate holds the roll for
another reason. -/
theorem rollTarget_keeps_line_iff (S : Sorter ValkeyNode) (r : RollInputs)
    (cluster : PerconaValkeyCluster) (nodes : List ValkeyNode) (state : Option ClusterState)
    (configHash : Str) :
    (∀ t, rollTarget S r cluster nodes state configHash = some t →
      ¬ (parseEngineVersion cluster.spec.image).LineBelow (parseEngineVersion t.spec.image)) ↔
    ∀ t, InLine S r cluster nodes state configHash t → Promoted r.failover state t →
      (parseEngineVersion cluster.spec.image).LineBelow (parseEngineVersion t.spec.image) →
      r.gate.listErr = none →
      ∀ current, pendingEngineChange cluster nodes = some current →
        classifyEngineChange current cluster.spec.image = .featureLineDowngrade ∨
        smartUpdateAllowed r.gate cluster state ≠ none := by
  constructor
  · intro h t hline hpromoted hbelow hlisted current hcurrent
    by_contra hnot
    obtain ⟨hdown, hallowed⟩ := not_or.mp hnot
    have hallow : reconcileSmartUpdate r.gate cluster nodes state = .allow := by
      refine reconcileSmartUpdate_eq_allow.mpr ⟨hlisted, fun current' hcurrent' => ?_⟩
      rw [hcurrent, Option.some.injEq] at hcurrent'
      exact ⟨hcurrent' ▸ hdown, not_not.mp hallowed⟩
    exact h t (rollTarget_eq_some.mpr ⟨hline, hallow, hpromoted⟩) hbelow
  · intro h t htarget hbelow
    obtain ⟨hline, hallow, hpromoted⟩ := rollTarget_eq_some.mp htarget
    obtain ⟨hlisted, hpending⟩ := reconcileSmartUpdate_eq_allow.mp hallow
    -- a node with a known line above the target's carries another image
    have hset : t.spec.image ≠ [] := by
      intro hempty
      rw [hempty] at hbelow
      exact absurd hbelow.2.1 (by decide)
    have hother : t.spec.image ≠ cluster.spec.image := by
      intro hsame
      rw [hsame] at hbelow
      exact EngineVersion.LineBelow.irrefl _ hbelow
    obtain ⟨current, hcurrent⟩ :=
      pendingEngineChange_of_mem (mem_of_nextRollCandidate hline.next).1 hset hother
    obtain ⟨hdown, hallowed⟩ := hpending current hcurrent
    rcases h t hline hpromoted hbelow hlisted current hcurrent with hdown' | hheld
    · exact hdown hdown'
    · exact hheld hallowed

/-- The packed number puts 8.150 above 9.0. -/
example : classifyEngineChange "valkey:9.0" "valkey:8.150" = .minorForward := by
  decide

/-- An update from 8.0 to 9.0 has reached the replica when the image is set to 8.1. -/
def pairHalfUpdated : List Member :=
  [{ node := pairNode 0 "h1" "valkey:8.0" "10.0.0.1"
     engine := { pairPrimary with id := "a1" } },
    { node := pairNode 1 "h1" "valkey:9.0" "10.0.0.2"
      engine := { pairReplica with id := "b2", primaryID := "a1" } }]

/-- The replica at 9.0 is stamped with 8.1. -/
theorem rollTarget_lowers_line :
    ∃ t, rollTarget .insertion { gate := { lease := noBackup } } pairCluster
        (nodesOf pairHalfUpdated) (getValkeyClusterState pairHalfUpdated) "h1" = some t ∧
      (parseEngineVersion pairCluster.spec.image).LineBelow (parseEngineVersion t.spec.image) := by
  refine ⟨pairNode 1 "h1" "valkey:9.0" "10.0.0.2", by decide, ?_⟩
  unfold EngineVersion.LineBelow
  decide

end ValkeyOperator.Cluster

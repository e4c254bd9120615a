import ValkeyOperator.Cluster.Members
import ValkeyOperator.Cluster.NodeSpec
import Mathlib.Logic.Relation

/-! One-at-a-time node stepping (`perconavalkeycluster/nodes.go`).

A pass creates the first missing node; with none missing it rolls one node whose
config hash or image differs; with none to roll it waits for the nodes to settle,
and then reports that nothing is left. A roll stamps labels and spec; the
annotations of the prescribed node are written neither by a roll nor by a
creation, and no other field than the two takes part in the comparison. -/

namespace ValkeyOperator.Cluster
open Text Valkey Api

variable {nodes : List ValkeyNode} {cluster : PerconaValkeyCluster} {S : Sorter ValkeyNode}
  {env : StepEnv} {configHash : Str} {n t : ValkeyNode}

/-! ## Reading the nodes -/

/-- The listed node with a given name; of several the last. -/
def existing (nodes : List ValkeyNode) (name : Str) : Option ValkeyNode :=
  nodes.reverse.find? fun n => n.name == name

def nodeNeedsRoll (node : ValkeyNode) (cluster : PerconaValkeyCluster) (configHash : Str) : Bool :=
  node.spec.serverConfigHash ≠ configHash ∨ node.spec.image ≠ cluster.spec.image

def nodeConverged (node : ValkeyNode) (cluster : PerconaValkeyCluster) (configHash : Str) : Bool :=
  node.spec.serverConfigHash = configHash ∧ node.spec.image = cluster.spec.image ∧
    node.status.ready ∧ node.status.observedGeneration = node.generation

def anyRollPending (cluster : PerconaValkeyCluster) (nodes : List ValkeyNode)
    (configHash : Str) : Bool :=
  nodes.any fun n => nodeNeedsRoll n cluster configHash

/-- A node that carries the wanted hash and image but has not settled. -/
def midRollNode (cluster : PerconaValkeyCluster) (nodes : List ValkeyNode) (configHash : Str) :
    Option ValkeyNode :=
  nodes.find? fun n => !nodeNeedsRoll n cluster configHash && !nodeConverged n cluster configHash

def liveStateOf (state : Option ClusterState) (node : ValkeyNode) : Option NodeState :=
  match state with
  | none => none
  | some s => if node.status.podIP = [] then none else s.nodeByAddr (clientAddr node.status.podIP)

def isLivePrimaryNode (state : Option ClusterState) (node : ValkeyNode) : Bool :=
  match liveStateOf state node with
  | some live => live.isPrimary
  | none => nodeIndexOf node = 0

def orderedByName (S : Sorter ValkeyNode) (nodes : List ValkeyNode) : List ValkeyNode :=
  S.sort (fun a b => compareStr a.name b.name) nodes

/-- The first node to roll by name that is not a live primary, else the first
that is. -/
def nextRollCandidate (S : Sorter ValkeyNode) (cluster : PerconaValkeyCluster)
    (nodes : List ValkeyNode) (state : Option ClusterState) (configHash : Str) :
    Option ValkeyNode :=
  let pending := (orderedByName S nodes).filter fun n => nodeNeedsRoll n cluster configHash
  match pending.find? fun n => !isLivePrimaryNode state n with
  | some n => some n
  | none => pending.find? fun n => isLivePrimaryNode state n

def nodeKeyOf (node : ValkeyNode) : NodeKey := ⟨shardIndexOf node, nodeIndexOf node⟩

def gateAnnotation : Str := "valkey.percona.com/gate-engine-roll"

def shouldGateEngineRoll (cluster : PerconaValkeyCluster) : Bool :=
  match cluster.annotations.lookup gateAnnotation with
  | some v => v = "true" ∨ v = "1"
  | none => false

/-! ## Deciding on the one write -/

/-- What a pass meets outside the node list: the scraped engines, the verdict of
the update gate, how a proactive failover ends, and whether the one write
succeeds. -/
structure StepEnv where
  state : Option ClusterState := none
  smartUpdate : Bool := true
  failover : Except Err Bool := .ok true
  write : Option Err := none

inductive RollDecision where
  | hold
  | fail (e : Err)
  | stamp (target : ValkeyNode)

/-- A node is stamped, a live primary only after a completed failover. -/
def rollNode (env : StepEnv) (node : ValkeyNode) : RollDecision :=
  match liveStateOf env.state node with
  | some live =>
    if live.isPrimary then
      match env.failover with
      | .error e => .fail e
      | .ok false => .hold
      | .ok true => .stamp node
    else .stamp node
  | none => .stamp node

def rollNextNode (S : Sorter ValkeyNode) (env : StepEnv) (cluster : PerconaValkeyCluster)
    (nodes : List ValkeyNode) (configHash : Str) : RollDecision :=
  if shouldGateEngineRoll cluster then .hold
  else if (midRollNode cluster nodes configHash).isSome then .hold
  else if !env.smartUpdate then .hold
  else
    match nextRollCandidate S cluster nodes env.state configHash with
    | none => .hold
    | some target => rollNode env target

inductive StepDecision where
  | create (key : NodeKey)
  | roll (decision : RollDecision)
  | wait
  | done

/-- The first missing position, else a roll, else waiting for the nodes. -/
def stepDecision (S : Sorter ValkeyNode) (env : StepEnv) (cluster : PerconaValkeyCluster)
    (nodes : List ValkeyNode) (configHash : Str) : StepDecision :=
  match (desiredNodes cluster).find? fun key =>
      (existing nodes (keyName cluster.name key)).isNone with
  | some key => .create key
  | none =>
    if anyRollPending cluster nodes configHash then
      .roll (rollNextNode S env cluster nodes configHash)
    else if (desiredNodes cluster).any fun key =>
        match existing nodes (keyName cluster.name key) with
        | some current => !nodeConverged current cluster configHash
        | none => false
      then .wait
    else .done

/-! ## Writing it -/

/-- An update of labels and spec; the API server counts spec changes. -/
def ValkeyNode.written (n : ValkeyNode) (labels : StrMap) (spec : ValkeyNodeSpec) : ValkeyNode :=
  { n with
    labels := labels, spec := spec
    generation := if spec = n.spec then n.generation else n.generation + 1 }

def updateNode (name : Str) (labels : StrMap) (spec : ValkeyNodeSpec) (nodes : List ValkeyNode) :
    List ValkeyNode :=
  nodes.map fun n => if n.name = name then ValkeyNode.written n labels spec else n

/-- Perform the one write of a pass. -/
def StepEnv.writing (env : StepEnv) (f : List ValkeyNode → List ValkeyNode) :
    Action (List ValkeyNode) Unit := fun nodes =>
  match env.write with
  | none => .ok () (f nodes)
  | some e => .error e nodes

/-- Create the node, or update the one that has appeared meanwhile. -/
def createValkeyNode (env : StepEnv) (cluster : PerconaValkeyCluster) (key : NodeKey)
    (configHash : Str) : Action (List ValkeyNode) Unit :=
  let desired := buildValkeyNodeSpec cluster key configHash
  env.writing fun nodes =>
    if (existing nodes desired.name).isSome then
      updateNode desired.name desired.labels desired.spec nodes
    else nodes ++ [{ name := desired.name, labels := desired.labels, spec := desired.spec }]

/-- Stamp what the cluster prescribes for the node's position, as its labels give
it. -/
def stampRoll (env : StepEnv) (cluster : PerconaValkeyCluster) (node : ValkeyNode)
    (configHash : Str) : Action (List ValkeyNode) Unit :=
  let desired := buildValkeyNodeSpec cluster (nodeKeyOf node) configHash
  (env.writing (updateNode node.name desired.labels desired.spec)).mapErr
    (Err.wrap ("stamp roll on " ++ node.name))

/-- One pass over the listed nodes; it reports whether to come back. -/
def reconcileValkeyNodes (S : Sorter ValkeyNode) (env : StepEnv) (cluster : PerconaValkeyCluster)
    (nodes : List ValkeyNode) (configHash : Str) : Action (List ValkeyNode) Bool :=
  match stepDecision S env cluster nodes configHash with
  | .create key => createValkeyNode env cluster key configHash >>= fun _ => pure true
  | .roll (.stamp target) => stampRoll env cluster target configHash >>= fun _ => pure true
  | .roll (.fail e) => throw e
  | .roll .hold => pure true
  | .wait => pure true
  | .done => pure false

/-- The node as a roll leaves it. -/
def stampedNode (cluster : PerconaValkeyCluster) (node : ValkeyNode) (configHash : Str) :
    ValkeyNode :=
  ValkeyNode.written node (buildValkeyNodeSpec cluster (nodeKeyOf node) configHash).labels
    (buildValkeyNodeSpec cluster (nodeKeyOf node) configHash).spec

/-- The node a pass stamps, if any. -/
def stepTarget (S : Sorter ValkeyNode) (env : StepEnv) (cluster : PerconaValkeyCluster)
    (nodes : List ValkeyNode) (configHash : Str) : Option ValkeyNode :=
  match env.write with
  | some _ => none
  | none =>
    match stepDecision S env cluster nodes configHash with
    | .roll (.stamp target) => some target
    | _ => none

/-! ## What a pass writes -/

theorem mem_of_existing {name : Str} (h : existing nodes name = some n) :
    n ∈ nodes ∧ n.name = name := by
  refine ⟨List.mem_reverse.mp (List.mem_of_find?_eq_some h), ?_⟩
  simpa using List.find?_some h

theorem mem_of_nextRollCandidate {state : Option ClusterState}
    (h : nextRollCandidate S cluster nodes state configHash = some n) :
    n ∈ nodes ∧ nodeNeedsRoll n cluster configHash = true := by
  have hmem : n ∈ (orderedByName S nodes).filter fun n => nodeNeedsRoll n cluster configHash := by
    unfold nextRollCandidate at h
    dsimp only at h
    split at h
    · cases h
      exact List.mem_of_find?_eq_some ‹_›
    · exact List.mem_of_find?_eq_some h
  obtain ⟨hin, hroll⟩ := List.mem_filter.mp hmem
  exact ⟨S.mem_sort.mp hin, hroll⟩

theorem rollNode_stamp {node target : ValkeyNode} (h : rollNode env node = .stamp target) :
    target = node := by
  unfold rollNode at h
  split at h
  · split at h
    · split at h <;> cases h
      rfl
    · cases h
      rfl
  · cases h
    rfl

theorem rollNextNode_stamp {target : ValkeyNode}
    (h : rollNextNode S env cluster nodes configHash = .stamp target) :
    target ∈ nodes ∧ nodeNeedsRoll target cluster configHash = true := by
  unfold rollNextNode at h
  split at h
  · cases h
  split at h
  · cases h
  split at h
  · cases h
  split at h
  · cases h
  · rename_i candidate hcandidate
    rw [rollNode_stamp h]
    exact mem_of_nextRollCandidate hcandidate

/-- What each decision says about the nodes. -/
inductive Decided (cluster : PerconaValkeyCluster) (nodes : List ValkeyNode) (configHash : Str) :
    StepDecision → Prop
  | create {key : NodeKey} (hkey : key ∈ desiredNodes cluster)
      (hmissing : existing nodes (keyName cluster.name key) = none) :
      Decided cluster nodes configHash (.create key)
  | roll {decision : RollDecision} (hroll : ∀ target, decision = .stamp target →
        target ∈ nodes ∧ nodeNeedsRoll target cluster configHash = true) :
      Decided cluster nodes configHash (.roll decision)
  | wait : Decided cluster nodes configHash .wait
  | done (hdone : ∀ key ∈ desiredNodes cluster, ∃ n,
        existing nodes (keyName cluster.name key) = some n ∧
        nodeConverged n cluster configHash = true) :
      Decided cluster nodes configHash .done

theorem stepDecision_decided (S : Sorter ValkeyNode) (env : StepEnv)
    (cluster : PerconaValkeyCluster) (nodes : List ValkeyNode) (configHash : Str) :
    Decided cluster nodes configHash (stepDecision S env cluster nodes configHash) := by
  unfold stepDecision
  split
  · rename_i key hkey
    exact .create (List.mem_of_find?_eq_some hkey) (by simpa using List.find?_some hkey)
  · rename_i hfilled
    split
    · exact .roll fun target htarget => rollNextNode_stamp htarget
    · split
      · exact .wait
      · rename_i hsettled
        refine .done fun key hkey => ?_
        have hsome := List.find?_eq_none.mp hfilled key hkey
        have hconv := List.any_eq_false.mp (Bool.eq_false_iff.mpr hsettled) key hkey
        cases hx : existing nodes (keyName cluster.name key) with
        | none => simp [hx] at hsome
        | some n => exact ⟨n, rfl, by simpa [hx] using hconv⟩

/-- The nodes after one write of a pass: none, one created at a missing position,
or one that needs a roll stamped. -/
inductive Written (cluster : PerconaValkeyCluster) (configHash : Str) (nodes : List ValkeyNode) :
    List ValkeyNode → Prop
  | none : Written cluster configHash nodes nodes
  | created {key : NodeKey} (hkey : key ∈ desiredNodes cluster)
      (hmissing : existing nodes (keyName cluster.name key) = none) :
      Written cluster configHash nodes (nodes ++
        [{ name := keyName cluster.name key
           labels := nodeLabels cluster.name key.shard key.node
           spec := (buildValkeyNodeSpec cluster key configHash).spec }])
  | stamped {target : ValkeyNode} (htarget : target ∈ nodes)
      (hroll : nodeNeedsRoll target cluster configHash = true) :
      Written cluster configHash nodes (updateNode target.name
        (buildValkeyNodeSpec cluster (nodeKeyOf target) configHash).labels
        (buildValkeyNodeSpec cluster (nodeKeyOf target) configHash).spec nodes)

theorem writing_after (env : StepEnv) (f : List ValkeyNode → List ValkeyNode)
    (nodes : List ValkeyNode) :
    (env.writing f).after nodes = if env.write.isNone then f nodes else nodes := by
  unfold StepEnv.writing Action.after
  cases env.write <;> rfl

theorem stampRoll_after (env : StepEnv) (cluster : PerconaValkeyCluster) (target : ValkeyNode)
    (configHash : Str) (nodes : List ValkeyNode) :
    (stampRoll env cluster target configHash).after nodes =
      if env.write.isNone then
        updateNode target.name
          (buildValkeyNodeSpec cluster (nodeKeyOf target) configHash).labels
          (buildValkeyNodeSpec cluster (nodeKeyOf target) configHash).spec nodes
      else nodes := by
  unfold stampRoll
  rw [Action.after_mapErr, writing_after]

/-- Every pass makes at most one of these writes. -/
theorem reconcileValkeyNodes_written (S : Sorter ValkeyNode) (env : StepEnv)
    (cluster : PerconaValkeyCluster) (nodes : List ValkeyNode) (configHash : Str) :
    Written cluster configHash nodes
      ((reconcileValkeyNodes S env cluster nodes configHash).after nodes) := by
  have hdecided := stepDecision_decided S env cluster nodes configHash
  unfold reconcileValkeyNodes
  generalize stepDecision S env cluster nodes configHash = d at hdecided ⊢
  cases hdecided with
  | @create key hkey hmissing =>
    dsimp only
    rw [Action.after_bind_pure, createValkeyNode, writing_after]
    split
    · have hnone : (existing nodes (buildValkeyNodeSpec cluster key configHash).name).isSome =
          false := by
        change (existing nodes (keyName cluster.name key)).isSome = false
        rw [hmissing]
        rfl
      rw [hnone]
      exact .created hkey hmissing
    · exact .none
  | @roll decision hroll =>
    cases decision with
    | stamp target =>
      dsimp only
      rw [Action.after_bind_pure, stampRoll_after]
      split
      · exact .stamped (hroll target rfl).1 (hroll target rfl).2
      · exact .none
    | fail e => exact .none
    | hold => exact .none
  | wait => exact .none
  | done hdone => exact .none

/-- A pass reports that nothing is left only if all positions are filled with
converged nodes. -/
theorem reconcileValkeyNodes_done
    (h : (reconcileValkeyNodes S env cluster nodes configHash).outcome nodes = .ok false) :
    ∀ key ∈ desiredNodes cluster, ∃ n, existing nodes (keyName cluster.name key) = some n ∧
      nodeConverged n cluster configHash = true := by
  obtain ⟨nodes', h⟩ := Action.Returns.of_outcome h
  have hdecided := stepDecision_decided S env cluster nodes configHash
  unfold reconcileValkeyNodes at h
  generalize stepDecision S env cluster nodes configHash = d at hdecided h
  cases hdecided with
  | create hkey hmissing =>
    obtain ⟨_, _, -, hpure⟩ := h.bind
    cases hpure.pure.1
  | @roll decision hroll =>
    cases decision with
    | stamp target =>
      obtain ⟨_, _, -, hpure⟩ := h.bind
      cases hpure.pure.1
    | fail e => cases Action.Returns.not_throw h
    | hold => cases h.pure.1
  | wait => cases h.pure.1
  | done hdone => exact hdone

/-! ## The node of a name after a pass -/

theorem existing_of_mem (h : (nodes.map (·.name)).Nodup) (hn : n ∈ nodes) :
    existing nodes n.name = some n := by
  cases hx : existing nodes n.name with
  | none => simpa using List.find?_eq_none.mp hx n (List.mem_reverse.mpr hn)
  | some m =>
    obtain ⟨hm, hname⟩ := mem_of_existing hx
    rw [List.inj_on_of_nodup_map h hm hn hname]

theorem existing_updateNode (target : Str) (labels : StrMap) (spec : ValkeyNodeSpec)
    (nodes : List ValkeyNode) (name : Str) :
    existing (updateNode target labels spec nodes) name =
      (existing nodes name).map fun n =>
        if n.name = target then ValkeyNode.written n labels spec else n := by
  unfold existing updateNode
  rw [← List.map_reverse, List.find?_map]
  congr 2
  funext n
  dsimp only [Function.comp_apply]
  split <;> rfl

theorem existing_append {name : Str} (h : n.name ≠ name) :
    existing (nodes ++ [n]) name = existing nodes name := by
  unfold existing
  rw [List.reverse_append, List.reverse_singleton, List.singleton_append,
    List.find?_cons_of_neg (by simpa using h)]

/-- Under distinct names a pass leaves an existing node as it was, or as the roll
stamps it. -/
theorem reconcileValkeyNodes_existing (S : Sorter ValkeyNode) (env : StepEnv)
    (cluster : PerconaValkeyCluster) (configHash : Str) (hnodup : (nodes.map (·.name)).Nodup)
    {name : Str} {b : ValkeyNode} (hb : existing nodes name = some b) :
    existing ((reconcileValkeyNodes S env cluster nodes configHash).after nodes) name =
      match stepTarget S env cluster nodes configHash with
      | some t => if t.name = name then some (stampedNode cluster t configHash) else some b
      | none => some b := by
  have hdecided := stepDecision_decided S env cluster nodes configHash
  unfold reconcileValkeyNodes stepTarget
  generalize stepDecision S env cluster nodes configHash = d at hdecided ⊢
  cases hdecided with
  | @create key hkey hmissing =>
    dsimp only
    rw [Action.after_bind_pure, createValkeyNode, writing_after]
    cases env.write with
    | some e => exact hb
    | none =>
      change existing (if (existing nodes (keyName cluster.name key)).isSome then _ else _) name = _
      rw [hmissing]
      refine (existing_append fun hname => ?_).trans hb
      change keyName cluster.name key = name at hname
      rw [hname, hb] at hmissing
      cases hmissing
  | @roll decision hroll =>
    cases decision with
    | stamp target =>
      dsimp only
      rw [Action.after_bind_pure, stampRoll_after]
      cases env.write with
      | some e => exact hb
      | none =>
        change existing (updateNode target.name _ _ nodes) name = _
        rw [existing_updateNode, hb, Option.map_some, (mem_of_existing hb).2]
        dsimp only
        by_cases hname : name = target.name
        · have htarget : target = b := by
            have := existing_of_mem hnodup (hroll target rfl).1
            rw [← hname, hb, Option.some.injEq] at this
            exact this.symm
          rw [if_pos hname, if_pos hname.symm, htarget]
          rfl
        · rw [if_neg hname, if_neg (Ne.symm hname)]
    | fail e => cases env.write <;> exact hb
    | hold => cases env.write <;> exact hb
  | wait => cases env.write <;> exact hb
  | done hdone => cases env.write <;> exact hb

/-! ## Which node a pass stamps -/

/-- All positions are filled, nothing holds the rolls back, and `t` is next; if it
is a live primary, its failover is complete. -/
structure Due (S : Sorter ValkeyNode) (env : StepEnv) (cluster : PerconaValkeyCluster)
    (nodes : List ValkeyNode) (configHash : Str) (t : ValkeyNode) : Prop where
  filled : ∀ key ∈ desiredNodes cluster, (existing nodes (keyName cluster.name key)).isSome
  ungated : shouldGateEngineRoll cluster = false
  allowed : env.smartUpdate = true
  next : nextRollCandidate S cluster nodes env.state configHash = some t
  promoted : ∀ live, liveStateOf env.state t = some live → live.isPrimary = true →
    env.failover = .ok true
  writable : env.write = none

/-- Every node that needs no roll has settled. -/
def Settled (cluster : PerconaValkeyCluster) (nodes : List ValkeyNode) (configHash : Str) : Prop :=
  ∀ n ∈ nodes, nodeNeedsRoll n cluster configHash = false →
    nodeConverged n cluster configHash = true

theorem rollNode_eq_stamp :
    rollNode env t = .stamp t ↔
      ∀ live, liveStateOf env.state t = some live → live.isPrimary = true →
        env.failover = .ok true := by
  unfold rollNode
  cases hlive : liveStateOf env.state t with
  | none => simp
  | some live =>
    by_cases hprimary : live.isPrimary = true
    · rcases hfailover : env.failover with e | done
      · simp [hprimary]
      · cases done <;> simp [hprimary]
    · simp [hprimary]

theorem midRollNode_isSome :
    (midRollNode cluster nodes configHash).isSome = false ↔ Settled cluster nodes configHash := by
  unfold midRollNode Settled
  simp [List.find?_eq_none]

theorem rollNextNode_eq_stamp :
    rollNextNode S env cluster nodes configHash = .stamp t ↔
      shouldGateEngineRoll cluster = false ∧ Settled cluster nodes configHash ∧
      env.smartUpdate = true ∧
      nextRollCandidate S cluster nodes env.state configHash = some t ∧
      ∀ live, liveStateOf env.state t = some live → live.isPrimary = true →
        env.failover = .ok true := by
  rw [← midRollNode_isSome, ← rollNode_eq_stamp]
  unfold rollNextNode
  cases shouldGateEngineRoll cluster with
  | true => simp
  | false =>
    cases (midRollNode cluster nodes configHash).isSome with
    | true => simp
    | false =>
      cases env.smartUpdate with
      | false => simp
      | true =>
        cases nextRollCandidate S cluster nodes env.state configHash with
        | none => simp
        | some candidate =>
          simp only [Bool.false_eq_true, if_false, Bool.not_true, true_and, Option.some.injEq]
          constructor
          · intro h
            have htarget := rollNode_stamp h
            subst htarget
            exact ⟨rfl, h⟩
          · intro h
            obtain ⟨rfl, hstamp⟩ := h
            exact hstamp

theorem filled_of_roll {decision : RollDecision}
    (h : stepDecision S env cluster nodes configHash = .roll decision) :
    ∀ key ∈ desiredNodes cluster, (existing nodes (keyName cluster.name key)).isSome := by
  intro key hkey
  unfold stepDecision at h
  split at h
  · cases h
  · rename_i hfilled
    simpa [Option.isSome_iff_ne_none] using List.find?_eq_none.mp hfilled key hkey

/-- A pass stamps the node that is due, once the others have settled. -/
theorem stepTarget_eq_some :
    stepTarget S env cluster nodes configHash = some t ↔
      Due S env cluster nodes configHash t ∧ Settled cluster nodes configHash := by
  constructor
  · intro h
    unfold stepTarget at h
    split at h
    · cases h
    · rename_i hwrite
      split at h
      · rename_i target hdecision
        cases h
        have hfilled := filled_of_roll hdecision
        unfold stepDecision at hdecision
        split at hdecision
        · cases hdecision
        · split at hdecision
          · rw [StepDecision.roll.injEq, rollNextNode_eq_stamp] at hdecision
            obtain ⟨hgate, hsettled, hallowed, hnext, hpromoted⟩ := hdecision
            exact ⟨⟨hfilled, hgate, hallowed, hnext, hpromoted, hwrite⟩, hsettled⟩
          · split at hdecision <;> cases hdecision
      · cases h
  · intro h
    obtain ⟨hdue, hsettled⟩ := h
    have hfilled : ((desiredNodes cluster).find? fun key =>
        (existing nodes (keyName cluster.name key)).isNone) = none := by
      refine List.find?_eq_none.mpr fun key hkey => ?_
      simpa [Option.isSome_iff_ne_none] using hdue.filled key hkey
    have hpending : anyRollPending cluster nodes configHash = true := by
      obtain ⟨hmem, hroll⟩ := mem_of_nextRollCandidate hdue.next
      exact List.any_eq_true.mpr ⟨t, hmem, hroll⟩
    have hstamp : rollNextNode S env cluster nodes configHash = .stamp t :=
      rollNextNode_eq_stamp.mpr ⟨hdue.ungated, hsettled, hdue.allowed, hdue.next, hdue.promoted⟩
    unfold stepTarget stepDecision
    rw [hdue.writable, hfilled]
    dsimp only
    rw [if_pos hpending, hstamp]

/-- Nothing is left to do once all positions are filled with converged nodes and no
other node has to roll. -/
theorem stepDecision_eq_done :
    stepDecision S env cluster nodes configHash = .done ↔
      (∀ key ∈ desiredNodes cluster, ∃ n, existing nodes (keyName cluster.name key) = some n ∧
        nodeConverged n cluster configHash = true) ∧
      anyRollPending cluster nodes configHash = false := by
  constructor
  · intro h
    have hdecided := stepDecision_decided S env cluster nodes configHash
    rw [h] at hdecided
    cases hdecided with
    | done hdone =>
      refine ⟨hdone, ?_⟩
      unfold stepDecision at h
      split at h
      · cases h
      · split at h
        · cases h
        · exact Bool.eq_false_iff.mpr ‹_›
  · intro h
    obtain ⟨hdone, hpending⟩ := h
    have hfilled : ((desiredNodes cluster).find? fun key =>
        (existing nodes (keyName cluster.name key)).isNone) = none := by
      refine List.find?_eq_none.mpr fun key hkey => ?_
      obtain ⟨n, hn, -⟩ := hdone key hkey
      simp [hn]
    have hsettled : ((desiredNodes cluster).any fun key =>
        match existing nodes (keyName cluster.name key) with
        | some current => !nodeConverged current cluster configHash
        | none => false) = false := by
      refine List.any_eq_false.mpr fun key hkey => ?_
      obtain ⟨n, hn, hconverged⟩ := hdone key hkey
      simp [hn, hconverged]
    unfold stepDecision
    rw [hfilled]
    simp only [hpending, hsettled, Bool.false_eq_true, if_false]

/-- The two nodes look the same to everything but the settling. -/
structure SameRoll (n m : ValkeyNode) : Prop where
  name : n.name = m.name
  labels : n.labels = m.labels
  status : n.status = m.status
  serverConfigHash : n.spec.serverConfigHash = m.spec.serverConfigHash
  image : n.spec.image = m.spec.image

theorem SameRoll.refl (n : ValkeyNode) : SameRoll n n := ⟨rfl, rfl, rfl, rfl, rfl⟩

section SameRoll

variable {f : ValkeyNode → ValkeyNode} (hf : ∀ n, SameRoll (f n) n)
include hf

theorem nodeNeedsRoll_same (n : ValkeyNode) (cluster : PerconaValkeyCluster) (configHash : Str) :
    nodeNeedsRoll (f n) cluster configHash = nodeNeedsRoll n cluster configHash := by
  unfold nodeNeedsRoll
  rw [(hf n).serverConfigHash, (hf n).image]

theorem liveStateOf_same (state : Option ClusterState) (n : ValkeyNode) :
    liveStateOf state (f n) = liveStateOf state n := by
  unfold liveStateOf
  rw [(hf n).status]

theorem isLivePrimaryNode_same (state : Option ClusterState) (n : ValkeyNode) :
    isLivePrimaryNode state (f n) = isLivePrimaryNode state n := by
  unfold isLivePrimaryNode nodeIndexOf ValkeyNode.nodeLabel
  rw [liveStateOf_same hf, (hf n).labels]

theorem existing_map (nodes : List ValkeyNode) (name : Str) :
    existing (nodes.map f) name = (existing nodes name).map f := by
  unfold existing
  rw [← List.map_reverse, List.find?_map]
  congr 2
  funext n
  rw [Function.comp_apply, (hf n).name]

theorem nextRollCandidate_map (S : Sorter ValkeyNode) (cluster : PerconaValkeyCluster)
    (hnodup : (nodes.map (·.name)).Nodup) (state : Option ClusterState) (configHash : Str) :
    nextRollCandidate S cluster (nodes.map f) state configHash =
      (nextRollCandidate S cluster nodes state configHash).map f := by
  have hordered : orderedByName S (nodes.map f) = (orderedByName S nodes).map f := by
    refine S.sort_map (compares_compareStr _) (fun a b => ?_) fun a ha b hb hzero => ?_
    · rw [(hf a).name, (hf b).name]
    · exact List.inj_on_of_nodup_map hnodup ha hb (compareStr_eq_zero hzero)
  have hpending : ∀ xs : List ValkeyNode,
      (xs.map f).filter (fun n => nodeNeedsRoll n cluster configHash) =
        (xs.filter fun n => nodeNeedsRoll n cluster configHash).map f := by
    intro xs
    rw [List.filter_map]
    congr 2
    funext n
    exact nodeNeedsRoll_same hf n cluster configHash
  unfold nextRollCandidate
  dsimp only
  rw [hordered, hpending, List.find?_map, List.find?_map]
  have hlive : isLivePrimaryNode state ∘ f = isLivePrimaryNode state :=
    funext fun n => isLivePrimaryNode_same hf state n
  have hother : (fun n => !isLivePrimaryNode state n) ∘ f = fun n => !isLivePrimaryNode state n :=
    funext fun n => congrArg _ (isLivePrimaryNode_same hf state n)
  rw [hlive, hother]
  cases List.find? (fun n => !isLivePrimaryNode state n) _ <;> rfl

theorem due_map (hnodup : (nodes.map (·.name)).Nodup) {t' : ValkeyNode} :
    Due S env cluster (nodes.map f) configHash t' ↔
      ∃ t, f t = t' ∧ Due S env cluster nodes configHash t := by
  constructor
  · intro h
    have hnext := h.next
    rw [nextRollCandidate_map hf S cluster hnodup, Option.map_eq_some_iff] at hnext
    obtain ⟨t, hnext, rfl⟩ := hnext
    refine ⟨t, rfl, fun key hkey => ?_, h.ungated, h.allowed, hnext, ?_, h.writable⟩
    · simpa [existing_map hf] using h.filled key hkey
    · simpa [liveStateOf_same hf] using h.promoted
  · intro h
    obtain ⟨t, rfl, h⟩ := h
    refine ⟨fun key hkey => ?_, h.ungated, h.allowed, ?_, ?_, h.writable⟩
    · simpa [existing_map hf] using h.filled key hkey
    · rw [nextRollCandidate_map hf S cluster hnodup, h.next, Option.map_some]
    · simpa [liveStateOf_same hf] using h.promoted

end SameRoll

end ValkeyOperator.Cluster

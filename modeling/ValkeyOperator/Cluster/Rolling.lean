import ValkeyOperator.Cluster.Runs

/-! Rolling one node at a time.

A run remembers the nodes that were stamped and have not been ready since. The
node stepping waits for a node that carries the wanted hash and image and is not
ready, and for no other: a node in the middle of its roll counts as one that has
to roll, not as one to wait for, once an edit has changed what is wanted. As long
as no edit does that to a node that is rolling, the rolls are one after the other. -/

namespace ValkeyOperator.Cluster
open Text Valkey Api

/-- Ready, and reported so for the current generation. -/
def readyNow (n : ValkeyNode) : Bool :=
  n.status.ready && n.status.observedGeneration == n.generation

/-- Those of the names that belong to a node that is not ready. -/
def stillRolling (nodes : List ValkeyNode) (names : List Str) : List Str :=
  names.filter fun name => nodes.any fun n => n.name == name && !readyNow n

/-- `rolling` names the nodes that were stamped and have not been ready since. -/
structure RollWorld extends World where
  rolling : List Str

def RollWorld.withNodes (w : RollWorld) (nodes : List ValkeyNode) (stamped : List Str) :
    RollWorld :=
  { w with nodes := nodes, rolling := stillRolling nodes (stamped ++ w.rolling) }

/-- One pass of the cluster controller. -/
def RollWorld.pass (w : RollWorld) (S : Sorter ValkeyNode) (env : PassEnv) : RollWorld :=
  w.withNodes (infraPass S env w.cluster w.nodes w.configHash)
    ((passTarget S env w.cluster w.nodes w.configHash).map (·.name)).toList

inductive RollStep : RollWorld → RollWorld → Prop
  | edit (w : RollWorld) (cluster : PerconaValkeyCluster) (configHash : Str)
      (hname : cluster.name = w.cluster.name) :
      RollStep w { w with cluster := cluster, configHash := configHash }
  | pass (w : RollWorld) (S : Sorter ValkeyNode) (env : PassEnv) : RollStep w (w.pass S env)
  | report (w : RollWorld) (status : ValkeyNode → ValkeyNodeStatus) :
      RollStep w (w.withNodes (w.nodes.map fun n => { n with status := status n }) [])
  | delete (w : RollWorld) (keep : ValkeyNode → Bool) :
      RollStep w (w.withNodes (w.nodes.filter keep) [])

/-! ## What a node in the middle of its roll carries -/

/-- The step does not make a node that is rolling need another roll. Only an edit
can. -/
def Undisturbed (a b : RollWorld) : Prop :=
  ∀ n ∈ a.nodes, n.name ∈ a.rolling → nodeNeedsRoll n a.cluster a.configHash = false →
    nodeNeedsRoll n b.cluster b.configHash = false

/-- A node that is rolling carries the wanted hash and image. -/
def Rolling (cluster : PerconaValkeyCluster) (configHash : Str) (rolling : List Str)
    (n : ValkeyNode) : Prop :=
  n.name ∈ rolling → nodeNeedsRoll n cluster configHash = false

theorem nodeNeedsRoll_prescribed (cluster : PerconaValkeyCluster) (configHash : Str) (key : NodeKey)
    {n : ValkeyNode} (h : n.spec = (buildValkeyNodeSpec cluster key configHash).spec) :
    nodeNeedsRoll n cluster configHash = false := by
  have hhash : n.spec.serverConfigHash = configHash := by rw [h]; rfl
  have himage : n.spec.image = cluster.spec.image := by rw [h]; rfl
  simp [nodeNeedsRoll, hhash, himage]

theorem rolling_kept (cluster : PerconaValkeyCluster) (configHash : Str) (rolling : List Str) :
    Kept cluster configHash (Rolling cluster configHash rolling) where
  announcing _ _ _ hn := hn
  created key _ _ := nodeNeedsRoll_prescribed cluster configHash key rfl
  stamped target _ _ _ _ _ := nodeNeedsRoll_prescribed cluster configHash (nodeKeyOf target) rfl

theorem announced_rolling {cluster : PerconaValkeyCluster} {configHash : Str} {rolling : List Str}
    {nodes : List ValkeyNode} (h : ∀ n ∈ nodes, Rolling cluster configHash rolling n)
    (env : AnnounceEnv) :
    ∀ n ∈ (reconcileExposeAnnounce env cluster nodes).1, Rolling cluster configHash rolling n := by
  unfold reconcileExposeAnnounce
  split
  · exact announceEach_kept (rolling_kept cluster configHash rolling) env h
  · exact h

/-- A pass that stamps `t` leaves the announced nodes with `t` stamped. -/
theorem infraPass_of_target {S : Sorter ValkeyNode} {env : PassEnv}
    {cluster : PerconaValkeyCluster} {nodes : List ValkeyNode} {configHash : Str} {t : ValkeyNode}
    (h : passTarget S env cluster nodes configHash = some t) :
    stepTarget S env.step cluster (reconcileExposeAnnounce env.announce cluster nodes).1
        configHash = some t ∧
      infraPass S env cluster nodes configHash =
        updateNode t.name (buildValkeyNodeSpec cluster (nodeKeyOf t) configHash).labels
          (buildValkeyNodeSpec cluster (nodeKeyOf t) configHash).spec
          (reconcileExposeAnnounce env.announce cluster nodes).1 := by
  unfold passTarget at h
  unfold infraPass
  generalize reconcileExposeAnnounce env.announce cluster nodes = r at h ⊢
  obtain ⟨nodes', err⟩ := r
  cases err with
  | some e => cases h
  | none =>
    cases hinfra : env.infra with
    | some e => simp [hinfra] at h
    | none =>
      simp only [hinfra] at h
      refine ⟨h, ?_⟩
      unfold stepTarget at h
      split at h
      · cases h
      · rename_i hwrite
        split at h
        · rename_i target hdecision
          cases h
          simp only [reconcileValkeyNodes, hdecision, Action.after_bind_pure, stampRoll_after,
            hwrite, Option.isNone_none, if_true]
        · cases h

theorem rolling_pass {w : RollWorld}
    (h : ∀ n ∈ w.nodes, Rolling w.cluster w.configHash w.rolling n) (S : Sorter ValkeyNode)
    (env : PassEnv) : ∀ n ∈ (w.pass S env).nodes,
      Rolling w.cluster w.configHash (w.pass S env).rolling n := by
  intro n hn hrolling
  have hnamed := (List.mem_filter.mp hrolling).1
  change n ∈ infraPass S env w.cluster w.nodes w.configHash at hn
  cases htarget : passTarget S env w.cluster w.nodes w.configHash with
  | none =>
    rw [htarget] at hnamed
    exact infraPass_kept (rolling_kept w.cluster w.configHash w.rolling) S env h n hn hnamed
  | some t =>
    rw [htarget] at hnamed
    rw [(infraPass_of_target htarget).2] at hn
    obtain ⟨m, hm, rfl⟩ := List.mem_map.mp hn
    by_cases hname : m.name = t.name
    · rw [if_pos hname]
      exact nodeNeedsRoll_prescribed w.cluster w.configHash (nodeKeyOf t) rfl
    · rw [if_neg hname] at hnamed ⊢
      have hother : m.name ∈ w.rolling := by simpa [hname] using hnamed
      exact announced_rolling h env.announce m hm hother

theorem RollStep.rolling {a b : RollWorld} (hstep : RollStep a b) (hundisturbed : Undisturbed a b)
    (h : ∀ n ∈ a.nodes, Rolling a.cluster a.configHash a.rolling n) :
    ∀ n ∈ b.nodes, Rolling b.cluster b.configHash b.rolling n := by
  cases hstep with
  | edit cluster configHash hname =>
    intro n hn hrolling
    exact hundisturbed n hn hrolling (h n hn hrolling)
  | pass S env => exact rolling_pass h S env
  | report status =>
    intro n hn hrolling
    obtain ⟨m, hm, rfl⟩ := List.mem_map.mp hn
    exact h m hm (List.mem_filter.mp hrolling).1
  | delete keep =>
    intro n hn hrolling
    exact h n (List.mem_filter.mp hn).1 (List.mem_filter.mp hrolling).1

theorem run_rolling {a b : RollWorld} (hstart : a.rolling = [])
    (hrun : Relation.ReflTransGen (fun a b => RollStep a b ∧ Undisturbed a b) a b) :
    ∀ n ∈ b.nodes, Rolling b.cluster b.configHash b.rolling n := by
  induction hrun with
  | refl =>
    intro n _ hrolling
    rw [hstart] at hrolling
    cases hrolling
  | tail _ hstep ih => exact hstep.1.rolling hstep.2 ih

/-- In a run that starts with no node rolling and whose edits do not make a
rolling node need another roll, a pass stamps a node only when none of the nodes
it finds is still in the middle of an earlier roll. -/
theorem passTarget_stamps_alone {start w : RollWorld} (hstart : start.rolling = [])
    (hrun : Relation.ReflTransGen (fun a b => RollStep a b ∧ Undisturbed a b) start w)
    (S : Sorter ValkeyNode) (env : PassEnv) {t : ValkeyNode}
    (htarget : passTarget S env w.cluster w.nodes w.configHash = some t) :
    ∀ n ∈ (reconcileExposeAnnounce env.announce w.cluster w.nodes).1,
      n.name ∈ w.rolling → readyNow n = true := by
  intro n hn hrolling
  have hcarries := announced_rolling (run_rolling hstart hrun) env.announce n hn hrolling
  have hsettled := (stepTarget_eq_some.mp (infraPass_of_target htarget).1).2
  have hconverged := of_decide_eq_true (hsettled n hn hcarries)
  simp [readyNow, hconverged.2.2.1, hconverged.2.2.2]

/-! ## A second edit during a roll -/

/-- One shard with two replicas. -/
def trioCluster : PerconaValkeyCluster :=
  { name := "prod", spec := { shards := 1, replicas := 2, image := "valkey:8" } }

def trioNode (node : Int) (configHash : Str) : ValkeyNode :=
  { buildValkeyNodeSpec trioCluster ⟨0, node⟩ configHash with
    status := { observedGeneration := 1, ready := true } }

/-- The configuration was edited, and two of the nodes have been rolled already. -/
def trioWorld : RollWorld where
  cluster := trioCluster
  configHash := "h2"
  nodes := [trioNode 0 "h2", trioNode 1 "h2", trioNode 2 "h1"]
  rolling := []

/-- The last node is stamped. -/
def trioRolling : RollWorld := trioWorld.pass .insertion quietPass

/-- The configuration is edited once more. -/
def trioEdited : RollWorld := { trioRolling with configHash := "h3" }

/-- An edit of the annotations, which leaves the stamped node as it has to be. -/
def trioAnnotated : RollWorld :=
  { trioRolling with
    cluster := { trioCluster with annotations := [⟨"team", "data"⟩].toAList } }

/-- Every node is reported ready, the stamped one among them. -/
def trioReady : RollWorld :=
  trioAnnotated.withNodes (trioAnnotated.nodes.map fun n =>
    { n with status := { observedGeneration := n.generation, ready := true } }) []

/-- The second edit of the configuration comes after that. -/
def trioPatient : RollWorld := { trioReady with configHash := "h3" }

/-- An edit that comes once the stamped node is ready does not disturb it. -/
theorem trioPatient_run :
    Relation.ReflTransGen (fun a b => RollStep a b ∧ Undisturbed a b) trioWorld trioPatient := by
  have hpass : RollStep trioWorld trioRolling := .pass trioWorld .insertion quietPass
  have hannotate : RollStep trioRolling trioAnnotated := .edit trioRolling _ _ rfl
  have hreport : RollStep trioAnnotated trioReady := .report trioAnnotated _
  have hedit : RollStep trioReady trioPatient := .edit trioReady _ _ rfl
  have hsettled : trioReady.rolling = [] := by decide
  refine .tail (.tail (.tail (.single ⟨hpass, fun _ _ _ h => h⟩) ⟨hannotate, fun _ _ _ h => h⟩)
    ⟨hreport, fun _ _ _ h => h⟩) ⟨hedit, fun n _ hrolling => ?_⟩
  rw [hsettled] at hrolling
  cases hrolling

theorem passTarget_stamps_alone_trio :
    trioRolling.rolling = [nodeName "prod" 0 2] ∧
      passTarget .insertion quietPass trioPatient.cluster trioPatient.nodes
        trioPatient.configHash = some (trioNode 1 "h2") ∧
      ∀ n ∈ (reconcileExposeAnnounce quietPass.announce trioPatient.cluster trioPatient.nodes).1,
        n.name ∈ trioPatient.rolling → readyNow n = true := by
  have htarget : passTarget .insertion quietPass trioPatient.cluster trioPatient.nodes
      trioPatient.configHash = some (trioNode 1 "h2") := by decide
  exact ⟨by decide, htarget, passTarget_stamps_alone rfl trioPatient_run .insertion quietPass htarget⟩

/-- The node stamped last is not ready yet, and the pass after the second edit
stamps another one. -/
theorem passTarget_stamps_beside :
    Relation.ReflTransGen RollStep trioWorld trioEdited ∧ trioWorld.rolling = [] ∧
      ∃ t n, passTarget .insertion quietPass trioEdited.cluster trioEdited.nodes
          trioEdited.configHash = some t ∧
        n ∈ (reconcileExposeAnnounce quietPass.announce trioEdited.cluster trioEdited.nodes).1 ∧
        n.name ∈ trioEdited.rolling ∧ n.name ≠ t.name ∧ readyNow n = false := by
  refine ⟨.tail (.single (.pass trioWorld .insertion quietPass))
    (.edit trioRolling trioCluster "h3" rfl), rfl, trioNode 1 "h2", ?_⟩
  exact ⟨stampedNode trioCluster (trioNode 2 "h1") "h2", by decide⟩

end ValkeyOperator.Cluster

import ValkeyOperator.Cluster.Runs
import ValkeyOperator.Restore.Phases

/-! What a finished restore leaves behind.

The restore controller marks the cluster, the cluster controller copies the
marker into the specs of its primaries, and the node controller turns it into a
pod template that downloads the backup and switches the append-only file off.
None of the three undoes it when the restore is over, so a primary that is
restarted later loads the backup again. -/

namespace ValkeyOperator.Restore
open Text Valkey Api
open Cluster ValkeyOperator.Node

variable {cluster : PerconaValkeyCluster} {a b : RestoreWorld}

/-! ## Pods that load the backup -/

/-- A pod started for the node downloads the backup, or its server is told to
leave the append-only file aside. -/
def Seeds (node : ValkeyNode) : Prop :=
  (∃ c ∈ buildInitContainers node, c.name = restoreSeedName) ∨ appendOnlyOff <:+ serverCommand node

instance (node : ValkeyNode) : Decidable (Seeds node) := inferInstanceAs (Decidable (_ ∨ _))

theorem suffix_pair {α : Type} {a b x y : α} {l : List α} (h : [a, b] <:+ l ++ [x, y]) : a = x := by
  obtain ⟨pre, hpre⟩ := h
  have hlast := (List.append_inj' hpre rfl).2
  exact (List.cons.inj hlast).1

/-- Without a seed the server's last option is another one. -/
theorem serverCommand_last {node : ValkeyNode} (h : node.spec.restoreFrom = none) :
    ∃ l flag value, serverCommand node = l ++ [flag, value] ∧ flag ≠ "--appendonly".toList := by
  unfold serverCommand
  rw [h, Option.isSome_none, if_neg Bool.false_ne_true, List.append_nil]
  by_cases hacl : node.spec.aclSecretName ≠ []
  · rw [if_pos hacl]
    exact ⟨_, _, _, rfl, by decide⟩
  · rw [if_neg hacl, List.append_nil]
    unfold announceArgs
    split
    · exact ⟨_, _, _, rfl, by decide⟩
    · split
      · rw [List.append_nil]
        exact ⟨_, _, _, rfl, by decide⟩
      · split
        · rw [← List.append_assoc]
          exact ⟨_, _, _, rfl, by decide⟩
        · rw [List.append_nil]
          exact ⟨_, _, _, rfl, by decide⟩

/-- The seed of a spec is what makes its pods load the backup. -/
theorem seeds_iff (node : ValkeyNode) : Seeds node ↔ node.spec.restoreFrom ≠ none := by
  constructor
  · intro hseeds hnone
    rcases hseeds with ⟨c, hc, -⟩ | hcommand
    · unfold buildInitContainers at hc
      rw [hnone] at hc
      cases hc
    · obtain ⟨l, flag, value, hlast, hflag⟩ := serverCommand_last hnone
      rw [hlast] at hcommand
      exact hflag (suffix_pair hcommand).symm
  · intro hsome
    obtain ⟨src, hsrc⟩ := Option.ne_none_iff_exists'.mp hsome
    left
    unfold buildInitContainers
    rw [hsrc]
    exact ⟨buildRestoreSeedContainer node src, List.mem_singleton.mpr rfl, rfl⟩

theorem render_initContainers {merge : Merge}
    {node : ValkeyNode} {template : PodTemplate} (h : render merge node = .ok template) :
    template.initContainers = buildInitContainers node := by
  unfold render buildPodTemplate at h
  split at h
  · cases h
  · cases h
    rfl

/-! ## Runs -/

/-- The world after the controllers of its cluster have gone on to `v`. -/
def RestoreWorld.goOn (w : RestoreWorld) (v : World) : RestoreWorld :=
  { w with cluster := some v.cluster, configHash := v.configHash, nodes := v.nodes }

inductive Step : RestoreWorld → RestoreWorld → Prop
  | restore (w : RestoreWorld) (env : RestoreEnv) : Step w ((reconcile env).after w)
  | cluster {w : RestoreWorld} {cluster : PerconaValkeyCluster} {v : World}
      (hcluster : w.cluster = some cluster)
      (hstep : Cluster.Step ⟨cluster, w.configHash, w.nodes⟩ v) : Step w (w.goOn v)

/-- A step in which nobody edits the annotations of the cluster. -/
def LaterStep (a b : RestoreWorld) : Prop :=
  Step a b ∧ ∀ cluster, a.cluster = some cluster →
    ∃ cluster', b.cluster = some cluster' ∧ cluster'.annotations = cluster.annotations

/-- No marker on the cluster, and none of its nodes is told to seed. -/
structure Unmarked (w : RestoreWorld) : Prop where
  cluster : ∀ cluster, w.cluster = some cluster → isRestoreTarget cluster = false
  nodes : ∀ node ∈ w.nodes, node.spec.restoreFrom = none

/-! ## An unmarked cluster stays unmarked -/

theorem restoreSourceForNode_eq_none (h : isRestoreTarget cluster = false) (key : NodeKey) :
    restoreSourceForNode cluster key = none := by
  unfold restoreSourceForNode
  rw [h]
  rfl

/-- The writes of a pass over an unmarked cluster seed no node. -/
theorem kept_unseeded (h : isRestoreTarget cluster = false) (configHash : Str) :
    Kept cluster configHash fun node => node.spec.restoreFrom = none where
  announcing _ _ _ hn := hn
  created key _ := restoreSourceForNode_eq_none h key
  stamped target _ _ _ _ := restoreSourceForNode_eq_none h (nodeKeyOf target)

theorem clusterStep_unseeded {a b : World} (hstep : Cluster.Step a b)
    (hcluster : isRestoreTarget a.cluster = false)
    (h : ∀ node ∈ a.nodes, node.spec.restoreFrom = none) :
    ∀ node ∈ b.nodes, node.spec.restoreFrom = none := by
  cases hstep with
  | edit cluster configHash hname => exact h
  | pass S env => exact infraPass_kept (kept_unseeded hcluster _) S env h
  | report status =>
    intro node hnode
    obtain ⟨old, hold, rfl⟩ := List.mem_map.mp hnode
    exact h old hold
  | delete keep => exact fun node hnode => h node (List.mem_filter.mp hnode).1

theorem isRestoreTarget_congr {a b : PerconaValkeyCluster} (h : a.annotations = b.annotations) :
    isRestoreTarget a = isRestoreTarget b := by
  unfold isRestoreTarget
  rw [h]

/-- While the restore is over and nobody touches the annotations, an unmarked
cluster stays so. -/
theorem LaterStep.unmarked (hstep : LaterStep a b) (hterminal : isTerminal a.restore = true)
    (h : Unmarked a) : isTerminal b.restore = true ∧ Unmarked b := by
  obtain ⟨hstep, hannotations⟩ := hstep
  cases hstep with
  | restore env =>
    rw [reconcile_terminal env hterminal]
    exact ⟨hterminal, h⟩
  | @cluster cluster v hcluster hstep =>
    have hunmarked := h.cluster cluster hcluster
    refine ⟨hterminal, ?_, clusterStep_unseeded hstep hunmarked h.nodes⟩
    intro cluster' hcluster'
    obtain ⟨cluster'', hcluster'', hsame⟩ := hannotations cluster hcluster
    rw [hcluster', Option.some.injEq] at hcluster''
    rw [hcluster'', isRestoreTarget_congr hsame]
    exact hunmarked

theorem later_unmarked (hrun : Relation.ReflTransGen LaterStep a b)
    (hterminal : isTerminal a.restore = true) (h : Unmarked a) :
    isTerminal b.restore = true ∧ Unmarked b := by
  induction hrun with
  | refl => exact ⟨hterminal, h⟩
  | tail _ hstep ih => exact hstep.unmarked ih.1 ih.2

/-! ## A marked cluster seeds again -/

/-- Scaled to a single primary whose node is gone. -/
def reduced (cluster : PerconaValkeyCluster) : PerconaValkeyCluster :=
  { cluster with spec := { shards := 1 } }

theorem restoreSourceForNode_ne_none (h : isRestoreTarget cluster = true) (shard : Int) :
    restoreSourceForNode cluster ⟨shard, 0⟩ ≠ none := by
  unfold restoreSourceForNode
  rw [h]
  exact Option.some_ne_none _

theorem infraPass_reduced (cluster : PerconaValkeyCluster) (configHash : Str) :
    infraPass .insertion quietPass (reduced cluster) [] configHash =
      [{ name := keyName cluster.name ⟨0, 0⟩
         labels := nodeLabels cluster.name 0 0
         spec := (buildValkeyNodeSpec (reduced cluster) ⟨0, 0⟩ configHash).spec }] := rfl

theorem clusterStep_later {w : RestoreWorld} {v : World} (hcluster : w.cluster = some cluster)
    (hstep : Cluster.Step ⟨cluster, w.configHash, w.nodes⟩ v)
    (hsame : v.cluster.annotations = cluster.annotations) : LaterStep w (w.goOn v) := by
  refine ⟨.cluster hcluster hstep, fun other hother => ⟨v.cluster, rfl, ?_⟩⟩
  rw [hcluster, Option.some.injEq] at hother
  rw [← hother]
  exact hsame

/-- A marked cluster can come to create a primary, which is told to seed. -/
theorem later_seeds {w : RestoreWorld} (hcluster : w.cluster = some cluster)
    (hmarked : isRestoreTarget cluster = true) :
    ∃ w', Relation.ReflTransGen LaterStep w w' ∧ ∃ node ∈ w'.nodes, Seeds node := by
  have hedit := clusterStep_later hcluster (.edit _ (reduced cluster) w.configHash rfl) rfl
  have hdelete := clusterStep_later (w := w.goOn ⟨reduced cluster, w.configHash, w.nodes⟩) rfl
    (.delete _ fun _ => false) rfl
  have hpass := clusterStep_later
    (w := w.goOn ⟨reduced cluster, w.configHash, w.nodes.filter fun _ => false⟩) rfl
    (.pass _ .insertion quietPass) rfl
  refine ⟨_, .tail (.tail (.single hedit) hdelete) hpass, ?_⟩
  have hempty : (w.nodes.filter fun _ => false) = [] :=
    List.filter_eq_nil_iff.mpr fun _ _ => Bool.false_ne_true
  change ∃ node ∈ infraPass .insertion quietPass (reduced cluster) (w.nodes.filter fun _ => false)
    w.configHash, Seeds node
  rw [hempty, infraPass_reduced]
  refine ⟨_, List.mem_singleton.mpr rfl, (seeds_iff _).mpr ?_⟩
  have hreduced : isRestoreTarget (reduced cluster) = true := hmarked
  exact restoreSourceForNode_ne_none hreduced 0

/-- After a restore has succeeded no pod of the cluster loads the backup again,
whatever the controllers do later, exactly when the cluster carries no marker and
no node is told to seed. -/
theorem succeeded_never_seeds_iff (w : RestoreWorld)
    (hsucceeded : currentPhase w.restore = .succeeded) :
    (∀ w', Relation.ReflTransGen LaterStep w w' → ∀ node ∈ w'.nodes, ¬ Seeds node) ↔
      Unmarked w := by
  have hterminal : isTerminal w.restore = true := decide_eq_true (.inl hsucceeded)
  constructor
  · intro h
    refine ⟨fun cluster hcluster => ?_, fun node hnode => ?_⟩
    · by_contra hmarked
      obtain ⟨w', hrun, node, hnode, hseeds⟩ := later_seeds hcluster (Bool.of_not_eq_false hmarked)
      exact h w' hrun node hnode hseeds
    · by_contra hsome
      exact h w .refl node hnode ((seeds_iff node).mpr hsome)
  · intro h w' hrun node hnode hseeds
    exact (seeds_iff node).mp hseeds ((later_unmarked hrun hterminal h).2.nodes node hnode)

/-! ## Every successful restore leaves its marker -/

/-- A step in which the annotations of the cluster change only by the restore's hand. -/
inductive UneditedStep : RestoreWorld → RestoreWorld → Prop
  | restore (w : RestoreWorld) (env : RestoreEnv) : UneditedStep w ((reconcile env).after w)
  | later {a b : RestoreWorld} (hstep : LaterStep a b) : UneditedStep a b

theorem LaterStep.marked (hstep : LaterStep a b) (h : Marked a) : Marked b := by
  obtain ⟨cluster, hcluster, hmarked⟩ := h
  obtain ⟨cluster', hcluster', hsame⟩ := hstep.2 cluster hcluster
  exact ⟨cluster', hcluster', (isRestoreTarget_congr hsame).trans hmarked⟩

theorem UneditedStep.seededMarked (hstep : UneditedStep a b) (h : SeededMarked a) :
    SeededMarked b := by
  cases hstep with
  | restore env => exact reconcile_seededMarked env h
  | later hlater =>
    obtain ⟨hstep, -⟩ := id hlater
    cases hstep with
    | restore env => exact reconcile_seededMarked env h
    | cluster hcluster hstep => exact fun hseeded => hlater.marked (h hseeded)

theorem run_seededMarked (hrun : Relation.ReflTransGen UneditedStep a b) (h : SeededMarked a) :
    SeededMarked b := by
  induction hrun with
  | refl => exact h
  | tail _ hstep ih => exact hstep.seededMarked ih

/-- However a restore has come to seed its cluster, the cluster carries the marker from
then on; and once it has succeeded the cluster can go on to seed a primary again. -/
theorem succeeded_run_seeds {a b : RestoreWorld}
    (hrun : Relation.ReflTransGen UneditedStep a b) (hstart : Unseeded a) :
    ((currentPhase b.restore).Seeded → Marked b) ∧
    (currentPhase b.restore = .succeeded →
      ∃ w', Relation.ReflTransGen LaterStep b w' ∧ ∃ node ∈ w'.nodes, Seeds node) := by
  have hb : SeededMarked b := run_seededMarked hrun fun hseeded => absurd hseeded hstart
  refine ⟨hb, fun hsucceeded => ?_⟩
  have hseeded : (currentPhase b.restore).Seeded := by
    rw [hsucceeded]
    trivial
  obtain ⟨cluster, hcluster, hmarked⟩ := hb hseeded
  exact later_seeds hcluster hmarked

/-! ## A restore that reseeds on the next roll -/

/-- The restore of a backup of one shard. -/
def pendingWorld : RestoreWorld where
  restore := { name := "r1"
               spec := { clusterName := "prod", backupName := "b1" } }

def oneShard : RestoreEnv where
  source := .ok { cluster := "src", backup := "b1", storageName := "s3" }
  manifest := .ok
    { cluster := "src", backupName := "b1", mode := [], crVersion := []
      engineVersion := [], createdAt := [], consistency := []
      shards := [{ index := 0, primaryNodeID := "a1", slotRanges := "0-16383"
                   rdbKey := [], sizeBytes := 5, sha256 := [], masterReplOffset := 0 }] }
  verdict := .ok "complete"
  template := some { image := "valkey:8" }

def passes : Nat → RestoreWorld → RestoreWorld
  | 0, w => w
  | n + 1, w => passes n ((reconcile oneShard).after w)

theorem passes_run (n : Nat) (w : RestoreWorld) : Relation.ReflTransGen Step w (passes n w) := by
  induction n generalizing w with
  | zero => exact .refl
  | succ n ih => exact .head (.restore w oneShard) (ih _)

/-- The cluster the restore provisions. -/
def targetCluster : PerconaValkeyCluster :=
  { name := "prod"
    annotations := putAll (restoreMarkerAnnotations pendingWorld.restore
      { cluster := "src", backup := "b1", storageName := "s3" }) ∅
    spec := { image := "valkey:8", shards := 1 } }

/-- The primary as the cluster has created it, reporting ready. -/
def seededPrimary : ValkeyNode :=
  { buildValkeyNodeSpec targetCluster ⟨0, 0⟩ [] with
    status := { observedGeneration := 1, ready := true } }

def readyCluster : PerconaValkeyCluster :=
  { targetCluster with status := { state := .ready, conditions :=
      [(.clusterFormed, true), (.slotsAssigned, true), (.ready, true)] } }

def formedWorld : RestoreWorld :=
  (passes 3 pendingWorld).goOn ⟨readyCluster, [], [seededPrimary]⟩

theorem formedWorld_run : Relation.ReflTransGen Step (passes 3 pendingWorld) formedWorld := by
  have hcluster : (passes 3 pendingWorld).cluster = some targetCluster := rfl
  have hcreate := Step.cluster hcluster (.pass _ .insertion quietPass)
  have hreport := Step.cluster (w := (passes 3 pendingWorld).goOn
    ⟨targetCluster, [], infraPass .insertion quietPass targetCluster [] []⟩) rfl
    (.report _ fun _ => { observedGeneration := 1, ready := true })
  exact .tail (.tail (.single hcreate) hreport) (.cluster rfl (.edit _ readyCluster [] rfl))

def succeededWorld : RestoreWorld := passes 2 formedWorld

theorem succeededWorld_run : Relation.ReflTransGen Step pendingWorld succeededWorld :=
  ((passes_run 3 pendingWorld).trans formedWorld_run).trans (passes_run 2 formedWorld)

theorem passes_unedited (n : Nat) (w : RestoreWorld) :
    Relation.ReflTransGen UneditedStep w (passes n w) := by
  induction n generalizing w with
  | zero => exact .refl
  | succ n ih => exact .head (.restore w oneShard) (ih _)

/-- A restore whose target is there already. -/
theorem succeeded_run_seeds_adopted :
    let b := passes 5 (pendingWorld.goOn ⟨readyCluster, [], [seededPrimary]⟩)
    ∃ w', Relation.ReflTransGen LaterStep b w' ∧ ∃ node ∈ w'.nodes, Seeds node := by
  have hpending : currentPhase pendingWorld.restore = .pending := by decide
  have hstart := unseeded_of_phase (w := pendingWorld.goOn ⟨readyCluster, [], [seededPrimary]⟩)
    hpending id
  exact (succeeded_run_seeds (passes_unedited 5 _) hstart).2 (by decide +kernel)

/-- The cluster once someone has taken the markers away. -/
def strippedCluster : PerconaValkeyCluster := { readyCluster with annotations := ∅ }

/-- A restore that is over; the markers are gone and a roll has taken them from the
primary as well. -/
def strippedWorld : RestoreWorld where
  restore := { pendingWorld.restore with
    annotations := putAll [(annPhase, RestorePhase.succeeded.text)] ∅ }
  cluster := some strippedCluster
  nodes := [{ buildValkeyNodeSpec strippedCluster ⟨0, 0⟩ "h2" with
    status := { observedGeneration := 1, ready := true } }]

theorem strippedWorld_never_seeds :
    currentPhase strippedWorld.restore = .succeeded ∧
      (∃ node ∈ strippedWorld.nodes, nodeIndexOf node = 0) ∧
      ∀ w', Relation.ReflTransGen LaterStep strippedWorld w' → ∀ node ∈ w'.nodes, ¬ Seeds node := by
  have hphase : currentPhase strippedWorld.restore = .succeeded := by decide
  have hunmarked : Unmarked strippedWorld := by
    refine ⟨?_, by decide⟩
    rintro _ ⟨⟩
    decide
  exact ⟨hphase, by decide, (succeeded_never_seeds_iff strippedWorld hphase).mpr hunmarked⟩

/-- The config hash is edited once more, and the next pass rolls the primary. -/
def rolledWorld : RestoreWorld :=
  succeededWorld.goOn ⟨readyCluster, "h2",
    infraPass .insertion quietPass readyCluster [seededPrimary] "h2"⟩

theorem rolledWorld_run : Relation.ReflTransGen LaterStep succeededWorld rolledWorld := by
  have hcluster : succeededWorld.cluster = some readyCluster := rfl
  have hedit := clusterStep_later hcluster (.edit _ readyCluster "h2" rfl) rfl
  have hpass := clusterStep_later (w := succeededWorld.goOn
    ⟨readyCluster, "h2", [seededPrimary]⟩) rfl (.pass _ .insertion quietPass) rfl
  exact .tail (.single hedit) hpass

/-- The pod that is started for the rolled primary loads the backup again. -/
theorem succeeded_seeds_on_roll :
    Relation.ReflTransGen Step pendingWorld succeededWorld ∧
      currentPhase succeededWorld.restore = .succeeded ∧
      Relation.ReflTransGen LaterStep succeededWorld rolledWorld ∧
      ∃ node ∈ rolledWorld.nodes, nodeIndexOf node = 0 ∧ Seeds node :=
  ⟨succeededWorld_run, by decide +kernel, rolledWorld_run, by decide +kernel⟩

end ValkeyOperator.Restore

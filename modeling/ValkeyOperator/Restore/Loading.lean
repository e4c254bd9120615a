import ValkeyOperator.Backup.JobSettings
import ValkeyOperator.Lib.Runs
import ValkeyOperator.Restore.SeedStep
import ValkeyOperator.Restore.Target
import ValkeyOperator.Valkey.ServerConfig

/-! What a succeeded restore has loaded.

A restore takes its success from conditions of the target cluster. Over a cluster that it
has created itself, in a namespace without anything of that name, the conditions stand for
engines that have been started from its dumps: the markers are there before the first
node, every primary is prescribed the seed, its pods download before the engine starts,
and the slots are found assigned only once all nodes have been ready. Over a cluster that
was there before, the same conditions say nothing of the kind. -/

namespace ValkeyOperator.Restore
open Text Valkey Api
open Cluster ValkeyOperator.Node Backup

variable {c : ClusterWorld} {shard : Int} {starts starts' : List Start} {env : RestoreEnv}
  {rt : Runtime} {configHash : Str} {w : TargetWorld} {n : ValkeyNode}

/-! ## What a pod finds -/

/-- The environment of a container: its Secrets, then its own variables. -/
def seedEnv (found : Found) (c : Container) : List EnvVar :=
  secretEnv (c.envFrom.flatMap found.secret) ++ c.env

/-- The values that a file gives to a directive, whose name the engine reads in any case. -/
def given (name : String) (conf : Str) : List Str :=
  ((lines conf).filterMap directive).filterMap fun d =>
    if d.1.map Char.toLower = name.toList then some d.2 else none

/-- The file does not lead the engine away from the dump in the data directory. -/
def ReadsDump (conf : Str) : Prop :=
  (given "dir" conf).getLast? = some dataMountPath ∧
    (∀ file ∈ given "dbfilename" conf, file = "dump.rdb") ∧ given "include" conf = []

instance (conf : Str) : Decidable (ReadsDump conf) := inferInstanceAs (Decidable (_ ∧ _ ∧ _))

/-! ## The task of a restore -/

/-- A restore with the source it resolves to, the manifest there and its template. -/
structure RestoreTask where
  restore : PerconaValkeyRestore
  source : LocatedSource
  /-- the credentials and the operator's own variables that the source is opened with -/
  vars : Str → Str := fun _ => []
  manifest : Manifest
  template : Option ClusterSpec := none

namespace RestoreTask

variable (t : RestoreTask)

def target : Str := targetClusterName t.restore

/-- The node of the shard's primary. -/
def primary (shard : Int) : Str := keyName t.target ⟨shard, 0⟩

/-- The set that the restore has read the manifest of. -/
def set : Except Err SetLocation := setIn t.vars t.source.config t.source.cluster t.source.backup

/-- The engine of a pod that was started like this loads the shard's dump. -/
structure LoadsDump (shard : Int) (st : Start) : Prop where
  seeds : SeedsFrom t.source shard st.template
  /-- the seed step works on the very set -/
  set : ∃ l, t.set = .ok l ∧ ∀ c ∈ st.template.initContainers, c.name = restoreSeedName →
    locate (seedEnv st.found c) = .ok l
  /-- the last the command line says is that there is no append-only file to load instead -/
  engine : ∃ engine, st.template.containers.head? = some engine ∧
    appendOnlyOff <:+ engine.command ++ engine.args
  file : ReadsDump st.found.conf

/-- The engine of the shard's primary has been started from the shard's dump. -/
def Loaded (starts : List Start) (shard : Int) : Prop :=
  ∃ st ∈ starts, st.node = t.primary shard ∧ t.LoadsDump shard st

def AllLoaded (starts : List Start) : Prop :=
  ∀ shard : Nat, shard < t.manifest.shards.length → t.Loaded starts shard

variable {t}

theorem Loaded.mono (h : t.Loaded starts shard) (hsub : starts ⊆ starts') :
    t.Loaded starts' shard := by
  obtain ⟨st, hst, hloaded⟩ := h
  exact ⟨st, hsub hst, hloaded⟩

theorem AllLoaded.mono (h : t.AllLoaded starts) (hsub : starts ⊆ starts') :
    t.AllLoaded starts' := fun shard hshard => (h shard hshard).mono hsub

end RestoreTask

/-! ## The condition -/

variable (merge : Merge)

/-- The user's patch of the server container, if there is one, leaves the command line as it is
and takes no mount away. -/
def KeepsServer (containers : List Container) : Prop :=
  ∀ patch, patchFor containers "server" = some patch →
    ∀ base merged, merge base patch = .ok merged →
      merged.command ++ merged.args = base.command ++ base.args ∧ ∀ m ∈ base.volumeMounts,
        ∃ m' ∈ merged.volumeMounts, m'.name = m.name ∧ m'.mountPath = m.mountPath

/-- The template lets the pods reach the source and keep the dump. -/
structure Fits (t : RestoreTask) : Prop where
  /-- the source is in a cloud, and its store opens -/
  opens : ∃ l, t.set = .ok l
  /-- the storage has all the coordinates of the source, the name of the Secret included -/
  offers : ∃ storage, sourceStorage (t.template.getD {}) t.source = some storage ∧
    SameStore storage t.source.config
  persistent : (t.template.getD {}).persistence.isSome = true
  patches : KeepsServer merge (t.template.getD {}).containers
  /-- as many shards as a cluster can have -/
  shards : t.manifest.shards.length < 2 ^ 31

def credentialsSecretName (cfg : StorageConfig) : Str :=
  (cfg.coordinates.map (·.credentialsSecret)).getD []

/-- A node's seed is the source, with all its coordinates. -/
structure Leads (rs : RestoreSource) (src : LocatedSource) (shard : Int) : Prop where
  shard : rs.shardIndex = shard
  cluster : rs.clusterName = src.cluster
  backup : rs.backupName = src.backup
  storage : ∃ spec, rs.storageSpec = some spec ∧ SameStore spec src.config
  secret : rs.credentialsSecret = credentialsSecretName src.config

/-- The cluster carries the markers of the task and prescribes its seed to the primaries
of as many shards as there are dumps. -/
structure Prescribes (t : RestoreTask) (cluster : PerconaValkeyCluster) : Prop where
  name : cluster.name = t.target
  shards : cluster.spec.shards = Int32.ofNat t.manifest.shards.length
  marked : annotationsContain cluster.annotations
    (restoreMarkerAnnotations t.restore t.source.toResolvedSource) = true
  seeds : ∀ shard, ∃ rs, restoreSourceForNode cluster ⟨shard, 0⟩ = some rs ∧ Leads rs t.source shard
  persistent : cluster.spec.persistence.isSome = true
  patches : KeepsServer merge cluster.spec.containers

/-- The Secret that the source names, if it names one. -/
def RestoreTask.credentials (t : RestoreTask) (found : Found) : List (Str × Str) :=
  let name := credentialsSecretName t.source.config
  if name ≠ [] then found.secret name else []

/-- The source's Secret has none of the sidecar's variables and what the restore has opened the
source with, and the configuration of the engine reads the dump. -/
structure Finds (t : RestoreTask) (found : Found) : Prop where
  apart : ∀ e ∈ t.credentials found, e.1 ∉ jobNames
  vars : ∀ name ∈ storeVars, getenv (secretEnv (t.credentials found)) name = t.vars name
  conf : ReadsDump found.conf

/-- The passes of the restore resolve to its task, nobody else creates the cluster, an edit
leaves it with what the restore has prescribed, and the pods of primaries find it. -/
def Undisturbed (t : RestoreTask) (w : TargetWorld) : TargetEvent → Prop
  | .restore env _ _ _ => (∀ src, env.source = .ok src → src = t.source.toResolvedSource) ∧
      (∀ man, env.manifest = .ok man → man = t.manifest) ∧ env.template = t.template ∧
      env.appeared = none
  | .create .. => False
  | .cluster (.edit spec _ _) => ∀ c, w.target = some c →
      Prescribes merge t { c.cluster with spec := spec }
  | .cluster (.annotate annotations) => ∀ c, w.target = some c →
      Prescribes merge t { c.cluster with annotations := annotations }
  | .node name (.start _ found) => ∀ shard, name = t.primary shard → Finds t found
  | _ => True

/-- Nothing of a node is there. -/
structure Runtime.Absent (rt : Runtime) : Prop where
  workload : rt.workload = none
  pods : rt.pods = []
  stage : rt.stage = .idle

/-- The restore is new, and there is nothing under the name of its target. -/
structure Vacant (t : RestoreTask) (w : TargetWorld) : Prop where
  restore : w.restore = t.restore
  pending : currentPhase w.restore = .pending
  target : w.target = none
  nodes : w.nodes = []
  runtime : ∀ name, (w.runtime name).Absent
  starts : w.starts = []

/-! ## Nodes that are prescribed the seed -/

/-- The pods of the node seed the shard from the source. -/
structure Seeded (t : RestoreTask) (n : ValkeyNode) (shard : Int) : Prop where
  restoreFrom : ∃ rs, n.spec.restoreFrom = some rs ∧ Leads rs t.source shard
  persistent : n.spec.persistence.isSome = true
  patches : KeepsServer merge n.spec.containers

/-- A node of the target at its place, prescribed the seed if it is a primary. -/
structure OwnNode (t : RestoreTask) (n : ValkeyNode) : Prop where
  valid : (nodeKeyOf n).Valid
  name : n.name = keyName t.target (nodeKeyOf n)
  seeded : (nodeKeyOf n).node = 0 → Seeded merge t n (nodeKeyOf n).shard

/-- If it is a primary that reports ready, its engine has loaded the dump. -/
structure LoadedNode (t : RestoreTask) (starts : List Start) (n : ValkeyNode) : Prop
    extends OwnNode merge t n where
  loaded : (nodeKeyOf n).node = 0 → n.status.ready = true → t.Loaded starts (nodeKeyOf n).shard

variable {merge} {t : RestoreTask}

theorem credentialsSecretForStorage_of_same {spec : BackupStorageSpec} {cfg : StorageConfig}
    (h : SameStore spec cfg) : credentialsSecretForStorage spec = credentialsSecretName cfg := by
  obtain ⟨-, c, hspec, hcfg⟩ := h
  unfold credentialsSecretName
  rw [hcfg, ← hspec]
  unfold credentialsSecretForStorage StorageConfig.coordinates storageConfig
  cases spec.type <;> rfl

theorem Leads.points {rs : RestoreSource} {src : LocatedSource} (h : Leads rs src shard) :
    Points rs src shard := by
  obtain ⟨spec, hspec, hsame⟩ := h.storage
  exact ⟨h.shard, h.cluster, h.backup, spec, hspec, hsame.place⟩

/-- A pod of the template loads the dump if it finds what it needs. -/
structure Carries (t : RestoreTask) (shard : Int) (template : PodTemplate) : Prop where
  seeds : SeedsFrom t.source shard template
  source : ∀ c ∈ template.initContainers,
    ∃ node rs, c = buildRestoreSeedContainer node rs ∧ Leads rs t.source shard
  engine : ∃ engine, template.containers.head? = some engine ∧
    appendOnlyOff <:+ engine.command ++ engine.args

theorem Seeded.carries (h : Seeded merge t n shard) {template : PodTemplate}
    (hrender : render merge n = .ok template) : Carries t shard template := by
  obtain ⟨rs, hrs, hleads⟩ := h.restoreFrom
  refine ⟨?_, fun c hc => ?_, ?_⟩
  · refine (seedsFrom_iff hrender t.source shard).mpr ⟨⟨rs, hrs, hleads.points⟩, h.persistent, ?_⟩
    intro patch hpatch merged hmerged
    exact (h.patches patch hpatch _ merged hmerged).2 _ (server_mounts_data h.persistent)
  · rw [render_initContainers hrender, buildInitContainers, hrs] at hc
    exact ⟨n, rs, List.mem_singleton.mp hc, hleads⟩
  · obtain ⟨engine, hhead, hengine⟩ := render_engine hrender
    have hcommand : appendOnlyOff <:+ (buildServerContainer n).command ++
        (buildServerContainer n).args := by
      change appendOnlyOff <:+ serverCommand n ++ []
      rw [List.append_nil, serverCommand, hrs]
      exact List.suffix_append _ _
    refine ⟨engine, hhead, ?_⟩
    rcases mergeOne_eq_ok hengine with ⟨-, rfl⟩ | ⟨patch, hpatch, hmerged⟩
    · exact hcommand
    · rw [(h.patches patch hpatch _ _ hmerged).1]
      exact hcommand

theorem Carries.loadsDump {template : PodTemplate} (h : Carries t shard template)
    (hopens : ∃ l, t.set = .ok l) {found : Found} (hfinds : Finds t found) (node : Str) :
    t.LoadsDump shard ⟨node, template, found⟩ := by
  obtain ⟨l, hl⟩ := hopens
  refine ⟨h.seeds, ⟨l, hl, fun c hc _ => ?_⟩, h.engine, hfinds.conf⟩
  obtain ⟨n, rs, rfl, hleads⟩ := h.source c hc
  obtain ⟨spec, hspec, hsame⟩ := hleads.storage
  have hsecret : (buildRestoreSeedContainer n rs).envFrom.flatMap found.secret =
      t.credentials found := by
    change (if rs.credentialsSecret ≠ [] then [rs.credentialsSecret] else []).flatMap _ = _
    rw [hleads.secret]
    unfold RestoreTask.credentials
    by_cases hname : credentialsSecretName t.source.config = [] <;> simp [hname]
  unfold seedEnv
  rw [hsecret]
  change locate (_ ++ jobEnv (seedParams rs)) = _
  rw [hsame.locate (p := seedParams rs) hspec rfl ?_ hfinds.vars, ← hl]
  · change setIn _ _ rs.clusterName rs.backupName = _
    rw [hleads.cluster, hleads.backup]
    rfl
  · intro e he
    obtain ⟨pair, hpair, rfl⟩ := List.mem_map.mp he
    exact hfinds.apart pair hpair

theorem Prescribes.seeded {cluster : PerconaValkeyCluster} (h : Prescribes merge t cluster)
    (hspec : n.spec = (buildValkeyNodeSpec cluster ⟨shard, 0⟩ configHash).spec) :
    Seeded merge t n shard := by
  refine ⟨?_, ?_, ?_⟩
  · rw [hspec]
    exact h.seeds shard
  · rw [hspec]
    exact h.persistent
  · rw [hspec]
    exact h.patches

theorem Prescribes.ownNode {cluster : PerconaValkeyCluster} (h : Prescribes merge t cluster)
    {key : NodeKey} (hkey : key.Valid) (hname : n.name = keyName t.target key)
    (hlabels : n.labels = nodeLabels cluster.name key.shard key.node)
    (hspec : n.spec = (buildValkeyNodeSpec cluster key configHash).spec) :
    nodeKeyOf n = key ∧ OwnNode merge t n := by
  have hkeyOf := nodeKeyOf_eq hkey hlabels
  refine ⟨hkeyOf, hkeyOf.symm ▸ hkey, hkeyOf.symm ▸ hname, fun hprimary => ?_⟩
  rw [hkeyOf] at hprimary ⊢
  obtain ⟨shard, node⟩ := key
  cases hprimary
  exact h.seeded hspec

theorem OwnNode.key_unique (h : OwnNode merge t n) {key : NodeKey}
    (hname : n.name = keyName t.target key) : key = nodeKeyOf n :=
  keyName_injective h.valid (hname.symm.trans h.name)

/-- Every write of the cluster's passes keeps the nodes prescribed the seed. -/
theorem Prescribes.kept {cluster : PerconaValkeyCluster} (h : Prescribes merge t cluster)
    (configHash : Str) (starts : List Start) :
    Kept cluster configHash (LoadedNode merge t starts) where
  announcing n host port hn :=
    ⟨⟨hn.valid, hn.name, fun hprimary => ⟨(hn.seeded hprimary).restoreFrom,
      (hn.seeded hprimary).persistent, (hn.seeded hprimary).patches⟩⟩, hn.loaded⟩
  created key hkey := by
    obtain ⟨-, hown⟩ := h.ownNode (desiredNodes_valid hkey)
      (n := { name := keyName cluster.name key
              labels := nodeLabels cluster.name key.shard key.node
              spec := (buildValkeyNodeSpec cluster key configHash).spec })
      (by rw [h.name]) rfl rfl
    exact ⟨hown, fun _ hready => nomatch hready⟩
  stamped target n htarget hn hname := by
    have hplace : n.name = keyName t.target (nodeKeyOf target) := hname.trans htarget.name
    obtain ⟨hkeyOf, hown⟩ := h.ownNode htarget.valid
      (n := ValkeyNode.written n (buildValkeyNodeSpec cluster (nodeKeyOf target) configHash).labels
        (buildValkeyNodeSpec cluster (nodeKeyOf target) configHash).spec) hplace rfl rfl
    refine ⟨hown, fun hprimary hready => ?_⟩
    have hsame := hn.key_unique hplace
    rw [hkeyOf, hsame] at hprimary ⊢
    exact hn.loaded hprimary hready

/-! ## The controller of a primary's node -/

variable (merge t) in
/-- What the pass of the node's controller carries along. -/
def StageGood (starts : List Start) (shard : Int) : Stage → Prop
  | .idle => True
  | .fetched node => Seeded merge t node shard
  | .applied _ => True
  | .seen _ pod => isPodReady pod = true → t.Loaded starts shard

variable (merge t) in
/-- The node of a shard's primary, as its controller sees it. -/
structure SystemGood (starts : List Start) (shard : Int) (s : System) : Prop where
  node : Seeded merge t s.node shard
  reported : s.node.status.ready = true → t.Loaded starts shard
  workload : ∀ template, s.workload = some template → Carries t shard template
  ready : ∀ p ∈ s.pods, p.ready = true → t.Loaded starts shard
  stage : StageGood merge t starts shard s.stage

namespace SystemGood

variable {starts : List Start} {shard : Int} {s : System}

theorem holds (h : SystemGood merge t starts shard s) {stage : Stage} (hstage : s.stage = stage) :
    StageGood merge t starts shard stage := hstage ▸ h.stage

theorem write (h : SystemGood merge t starts shard s) (env : NodeEnv) {node : ValkeyNode}
    (hready : node.status.ready = true → t.Loaded starts shard) :
    SystemGood merge t starts shard (s.write env node) := by
  unfold System.write
  split
  · exact ⟨h.node, h.reported, h.workload, h.ready, trivial⟩
  · exact ⟨⟨h.node.restoreFrom, h.node.persistent, h.node.patches⟩, hready, h.workload, h.ready,
      trivial⟩

theorem fetch (h : SystemGood merge t starts shard s) : SystemGood merge t starts shard s.fetch := by
  unfold System.fetch
  split
  · exact ⟨h.node, h.reported, h.workload, h.ready, h.node⟩
  · exact h

theorem apply (h : SystemGood merge t starts shard s) (env : NodeEnv) :
    SystemGood merge t starts shard (s.apply merge env) := by
  unfold System.apply
  split
  · rename_i node hstage
    have hseeded : Seeded merge t node shard := h.holds hstage
    split
    · exact h.write env fun hready => nomatch hready
    · rename_i template hphase
      have happlied : SystemGood merge t starts shard
          { s with workload := some template, stage := .applied node } := by
        refine ⟨h.node, h.reported, fun template' heq => ?_, h.ready, trivial⟩
        cases heq
        exact hseeded.carries (workloadPhase_ok hphase)
      dsimp only
      split
      · exact happlied
      · exact h.write env fun hready => nomatch hready
      · exact happlied.write env fun hready => nomatch hready
  · exact h

theorem look (h : SystemGood merge t starts shard s) (env : NodeEnv) :
    SystemGood merge t starts shard (s.look env) := by
  unfold System.look
  split
  · split
    · exact h.write env fun hready => nomatch hready
    · rename_i node' pod hphase
      obtain ⟨-, rfl⟩ := podPhase_ok hphase
      refine ⟨h.node, h.reported, h.workload, h.ready, fun hready => ?_⟩
      cases hpod : getManagedPod s.pods with
      | none =>
        rw [hpod] at hready
        cases hready
      | some p =>
        rw [hpod] at hready
        refine h.ready p ?_ hready
        rw [getManagedPod_eq_some hpod]
        exact List.mem_singleton.mpr rfl
  · exact h

theorem report (h : SystemGood merge t starts shard s) (env : NodeEnv) :
    SystemGood merge t starts shard (s.report env) := by
  unfold System.report
  split
  · rename_i node pod hstage
    have hseen : isPodReady pod = true → t.Loaded starts shard := h.holds hstage
    refine h.write env fun hready => ?_
    rcases statusPhase_spec env node pod with ⟨-, hnot⟩ | ⟨-, hpod⟩
    · rw [hnot] at hready
      cases hready
    · exact hseen (hpod hready)
  · exact h

theorem abandon (h : SystemGood merge t starts shard s) :
    SystemGood merge t starts shard { s with stage := .idle } :=
  ⟨h.node, h.reported, h.workload, h.ready, trivial⟩

end SystemGood

/-! ## What belongs to a primary's node -/

variable (merge t) in
/-- Workload and pods seed the shard, and an engine that runs has loaded the dump. -/
structure RuntimeGood (starts : List Start) (shard : Int) (rt : Runtime) : Prop where
  workload : ∀ template, rt.workload = some template → Carries t shard template
  pods : ∀ p ∈ rt.pods, Carries t shard p.pod.template
  running : ∀ p ∈ rt.pods, p.running = true → t.Loaded starts shard
  ready : ∀ p ∈ rt.pods, p.pod.ready = true → p.running = true
  stage : StageGood merge t starts shard rt.stage

theorem Runtime.Absent.good (h : rt.Absent) (starts : List Start) (shard : Int) :
    RuntimeGood merge t starts shard rt := by
  refine ⟨fun template hsome => ?_, ?_, ?_, ?_, ?_⟩
  · rw [h.workload] at hsome
    cases hsome
  all_goals
    first
      | rw [h.pods]
        exact fun p hp => nomatch hp
      | rw [h.stage]
        trivial

namespace RuntimeGood

variable {starts starts' : List Start} {shard : Int} {rt : Runtime}

theorem mono (h : RuntimeGood merge t starts shard rt) (hsub : starts ⊆ starts') :
    RuntimeGood merge t starts' shard rt := by
  refine ⟨h.workload, h.pods, fun p hp hrun => (h.running p hp hrun).mono hsub, h.ready, ?_⟩
  have hstage := h.stage
  cases hcases : rt.stage with
  | idle => trivial
  | fetched node =>
    rw [hcases] at hstage
    exact hstage
  | applied node => trivial
  | seen node pod =>
    rw [hcases] at hstage
    exact fun hready => (hstage hready).mono hsub

theorem system (h : RuntimeGood merge t starts shard rt) (hseeded : Seeded merge t n shard)
    (hreported : n.status.ready = true → t.Loaded starts shard) :
    SystemGood merge t starts shard (rt.system n) where
  node := hseeded
  reported := hreported
  workload := h.workload
  ready p hp hready := by
    obtain ⟨live, hlive, rfl⟩ := List.mem_map.mp hp
    exact h.running live hlive (h.ready live hlive hready)
  stage := h.stage

theorem controlled (h : RuntimeGood merge t starts shard rt) {s : System}
    (hs : SystemGood merge t starts shard s) :
    RuntimeGood merge t starts shard { rt with workload := s.workload, stage := s.stage } :=
  ⟨hs.workload, h.pods, h.running, h.ready, hs.stage⟩

theorem collect (h : RuntimeGood merge t starts shard rt) :
    RuntimeGood merge t starts shard { rt with workload := none } :=
  ⟨fun _ hsome => (nomatch hsome), h.pods, h.running, h.ready, h.stage⟩

theorem createPod (h : RuntimeGood merge t starts shard rt) (pod ip : Str) :
    RuntimeGood merge t starts shard (rt.createPod pod ip) := by
  unfold Runtime.createPod
  split
  · rename_i template hworkload
    refine ⟨h.workload, ?_, ?_, ?_, h.stage⟩
    · exact List.forall_mem_append.mpr ⟨h.pods, List.forall_mem_singleton.mpr
        (h.workload template hworkload)⟩
    · exact List.forall_mem_append.mpr ⟨h.running, List.forall_mem_singleton.mpr
        fun hrun => nomatch hrun⟩
    · exact List.forall_mem_append.mpr ⟨h.ready, List.forall_mem_singleton.mpr
        fun hready => nomatch hready⟩
  · exact h

theorem removePods (h : RuntimeGood merge t starts shard rt) (keep : Node.Pod → Bool) :
    RuntimeGood merge t starts shard { rt with pods := rt.pods.filter fun p => keep p.pod } :=
  ⟨h.workload, fun p hp => h.pods p (List.mem_filter.mp hp).1,
    fun p hp => h.running p (List.mem_filter.mp hp).1,
    fun p hp => h.ready p (List.mem_filter.mp hp).1, h.stage⟩

theorem probe (h : RuntimeGood merge t starts shard rt) (ready : Node.Pod → Bool) :
    RuntimeGood merge t starts shard (rt.probe ready) := by
  refine ⟨h.workload, ?_, ?_, ?_, h.stage⟩ <;>
    refine List.forall_mem_map.mpr fun p hp => ?_
  · exact h.pods p hp
  · exact h.running p hp
  · exact fun hready => (Bool.and_eq_true_iff.mp hready).1

/-- The engines that are started now have been seeded, since their pods' templates say so. -/
theorem startPods (h : RuntimeGood merge t starts shard rt) (hopens : ∃ l, t.set = .ok l)
    (pod : Str) {found : Found} (hfinds : Finds t found) :
    RuntimeGood merge t (starts ++ (rt.pods.filter (·.starting pod)).map fun p =>
      ⟨t.primary shard, p.pod.template, found⟩) shard (rt.startPods pod) := by
  have hmono := h.mono (List.subset_append_left starts
    ((rt.pods.filter (·.starting pod)).map fun p => ⟨t.primary shard, p.pod.template, found⟩))
  refine ⟨h.workload, ?_, ?_, ?_, hmono.stage⟩ <;>
    refine List.forall_mem_map.mpr fun p hp => ?_
  · split
    · exact h.pods p hp
    · exact h.pods p hp
  · split
    · rename_i hstarting
      intro _
      refine ⟨⟨t.primary shard, p.pod.template, found⟩, List.mem_append_right _ ?_, rfl,
        (h.pods p hp).loadsDump hopens hfinds _⟩
      exact List.mem_map.mpr ⟨p, List.mem_filter.mpr ⟨hp, hstarting⟩, rfl⟩
    · exact hmono.running p hp
  · split
    · exact fun _ => rfl
    · exact h.ready p hp

end RuntimeGood

/-! ## The invariant -/

theorem LoadedNode.mono (h : LoadedNode merge t starts n) (hsub : starts ⊆ starts') :
    LoadedNode merge t starts' n :=
  ⟨h.toOwnNode, fun hprimary hready => (h.loaded hprimary hready).mono hsub⟩

variable (merge t) in
structure Good (w : TargetWorld) : Prop where
  name : w.restore.name = t.restore.name
  spec : w.restore.spec = t.restore.spec
  /-- before the restore is accepted there is nothing -/
  pending : currentPhase w.restore = .pending →
    w.target = none ∧ w.nodes = [] ∧ ∀ name, (w.runtime name).Absent
  target : ∀ c, w.target = some c → Prescribes merge t c.cluster
  slots : ∀ c, w.target = some c → c.status.conditionTrue .slotsAssigned = true →
    t.AllLoaded w.starts
  nodes : ∀ n ∈ w.nodes, LoadedNode merge t w.starts n
  runtime : ∀ shard, (⟨shard, 0⟩ : NodeKey).Valid →
    RuntimeGood merge t w.starts shard (w.runtime (t.primary shard))
  succeeded : currentPhase w.restore = .succeeded → t.AllLoaded w.starts

theorem Vacant.good (h : Vacant t w) : Good merge t w where
  name := by rw [h.restore]
  spec := by rw [h.restore]
  pending _ := ⟨h.target, h.nodes, h.runtime⟩
  target c hc := by
    rw [h.target] at hc
    cases hc
  slots c hc := by
    rw [h.target] at hc
    cases hc
  nodes n hn := by
    rw [h.nodes] at hn
    cases hn
  runtime shard _ := (h.runtime _).good w.starts shard
  succeeded hphase := by
    rw [h.pending] at hphase
    cases hphase

/-- The invariant as a function of what belongs to the node of one name. -/
theorem runtime_update {name : Str} (hothers : ∀ shard, (⟨shard, 0⟩ : NodeKey).Valid →
      RuntimeGood merge t starts shard (w.runtime (t.primary shard)))
    (hrt : ∀ shard, (⟨shard, 0⟩ : NodeKey).Valid → name = t.primary shard →
      RuntimeGood merge t starts shard rt) (shard : Int) (hvalid : (⟨shard, 0⟩ : NodeKey).Valid) :
    RuntimeGood merge t starts shard (Function.update w.runtime name rt (t.primary shard)) := by
  by_cases hname : t.primary shard = name
  · rw [hname, Function.update_self]
    exact hrt shard hvalid hname.symm
  · rw [Function.update_of_ne hname]
    exact hothers shard hvalid

theorem absent_update {name : Str} (hrt : rt.Absent) (h : ∀ name, (w.runtime name).Absent)
    (name' : Str) : (Function.update w.runtime name rt name').Absent := by
  by_cases hname : name' = name
  · rw [hname, Function.update_self]
    exact hrt
  · rw [Function.update_of_ne hname]
    exact h name'

/-! ## Node events -/

section NodeEvents

variable {w : TargetWorld} (h : Good merge t w) (name : Str)
include h

theorem Good.setRuntime (habsent : (w.runtime name).Absent → rt.Absent)
    (hrt : ∀ shard, RuntimeGood merge t w.starts shard (w.runtime name) →
      RuntimeGood merge t w.starts shard rt) : Good merge t (w.setRuntime name rt) where
  name := h.name
  spec := h.spec
  pending hphase := by
    obtain ⟨htarget, hnodes, hruntime⟩ := h.pending hphase
    exact ⟨htarget, hnodes, absent_update (habsent (hruntime name)) hruntime⟩
  target := h.target
  slots := h.slots
  nodes := h.nodes
  runtime := runtime_update h.runtime fun shard hvalid hname =>
    hrt shard (hname ▸ h.runtime shard hvalid)
  succeeded := h.succeeded

/-- A stage of the pass over one node keeps the invariant if it keeps that of a primary's
system. -/
theorem Good.control {f : System → System}
    (hf : ∀ shard s, SystemGood merge t w.starts shard s →
      SystemGood merge t w.starts shard (f s)) : Good merge t (w.control name f) := by
  unfold TargetWorld.control
  split
  · exact h
  · rename_i n hn
    obtain ⟨hmem, hname⟩ := mem_of_existing hn
    have hnode := h.nodes n hmem
    have hsystem : ∀ shard, (⟨shard, 0⟩ : NodeKey).Valid → name = t.primary shard →
        SystemGood merge t w.starts shard (f ((w.runtime name).system n)) := by
      intro shard hvalid hprimary
      have hkey : (⟨shard, 0⟩ : NodeKey) = nodeKeyOf n :=
        hnode.key_unique (hname.trans hprimary)
      have hseeded := hnode.seeded (by rw [← hkey])
      have hloaded := hnode.loaded (by rw [← hkey])
      rw [← hkey] at hseeded hloaded
      refine hf shard _ (RuntimeGood.system ?_ hseeded hloaded)
      exact hprimary ▸ h.runtime shard hvalid
    refine ⟨h.name, h.spec, fun hphase => ?_, h.target, h.slots, ?_, ?_, h.succeeded⟩
    · -- there is no node to work on before the restore is accepted
      rw [(h.pending hphase).2.1] at hmem
      cases hmem
    · refine List.forall_mem_map.mpr fun m hm => ?_
      have hgood := h.nodes m hm
      split
      · rename_i hsame
        refine ⟨⟨hgood.valid, hgood.name, fun hprimary => ?_⟩, fun hprimary hready => ?_⟩
        · exact ⟨(hgood.seeded hprimary).restoreFrom, (hgood.seeded hprimary).persistent,
            (hgood.seeded hprimary).patches⟩
        · have hkey : nodeKeyOf m = ⟨(nodeKeyOf m).shard, 0⟩ := by
            cases hcases : nodeKeyOf m with
            | mk shard node =>
              have hnode : (nodeKeyOf m).node = 0 := hprimary
              rw [hcases] at hnode
              cases hnode
              rfl
          have hplace : name = t.primary (nodeKeyOf m).shard := by
            rw [← hsame, hgood.name, hkey]
            rfl
          exact (hsystem _ (hkey ▸ hgood.valid) hplace).reported hready
      · exact hgood
    · exact runtime_update h.runtime fun shard hvalid hprimary =>
        (hprimary ▸ h.runtime shard hvalid : RuntimeGood merge t w.starts shard
          (w.runtime name)).controlled (hsystem shard hvalid hprimary)

theorem Good.start (hopens : ∃ l, t.set = .ok l) (pod : Str) {found : Found}
    (hfinds : ∀ shard, name = t.primary shard → Finds t found) :
    Good merge t (w.nodeStep merge name (.start pod found)) := by
  by_cases hphase : currentPhase w.restore = .pending
  · -- no pod is there yet, and nothing is started
    obtain ⟨htarget, hnodes, hruntime⟩ := h.pending hphase
    have habsent : ((w.runtime name).startPods pod).Absent := by
      refine ⟨(hruntime name).workload, ?_, (hruntime name).stage⟩
      show (w.runtime name).pods.map _ = []
      rw [(hruntime name).pods]
      rfl
    have hset := h.setRuntime name (fun _ => habsent) fun shard _ => habsent.good w.starts shard
    unfold TargetWorld.nodeStep
    dsimp only
    rw [if_pos hphase]
    exact hset
  · unfold TargetWorld.nodeStep
    dsimp only
    rw [if_neg hphase]
    have hsub := List.subset_append_left w.starts
      (((w.runtime name).pods.filter (·.starting pod)).map fun p => ⟨name, p.pod.template, found⟩)
    refine ⟨h.name, h.spec, fun hpending => absurd hpending hphase, h.target,
      fun c hc hslots => (h.slots c hc hslots).mono hsub,
      fun n hn => (h.nodes n hn).mono hsub, ?_, fun hdone => (h.succeeded hdone).mono hsub⟩
    refine runtime_update (fun shard hvalid => (h.runtime shard hvalid).mono hsub) ?_
    rintro shard hvalid rfl
    exact (h.runtime shard hvalid).startPods hopens pod (hfinds shard rfl)

theorem Good.node (hopens : ∃ l, t.set = .ok l) (e : NodeEvent)
    (hallowed : Undisturbed merge t w (.node name e)) : Good merge t (w.nodeStep merge name e) := by
  cases e with
  | fetch => exact h.control name fun _ _ hs => hs.fetch
  | apply env => exact h.control name fun _ _ hs => hs.apply env
  | look env => exact h.control name fun _ _ hs => hs.look env
  | report env => exact h.control name fun _ _ hs => hs.report env
  | abandon => exact h.control name fun _ _ hs => hs.abandon
  | collect => exact h.setRuntime name (fun ha => ⟨rfl, ha.pods, ha.stage⟩) fun _ hrt => hrt.collect
  | createPod pod ip =>
    refine h.setRuntime name (fun ha => ?_) fun _ hrt => hrt.createPod pod ip
    unfold Runtime.createPod
    rw [ha.workload]
    exact ha
  | removePods keep =>
    refine h.setRuntime name (fun ha => ⟨ha.workload, ?_, ha.stage⟩) fun _ hrt => hrt.removePods keep
    dsimp only
    rw [ha.pods]
    rfl
  | start pod found => exact h.start name hopens pod hallowed
  | probe ready =>
    refine h.setRuntime name (fun ha => ⟨ha.workload, ?_, ha.stage⟩) fun _ hrt => hrt.probe ready
    show (w.runtime name).pods.map _ = []
    rw [ha.pods]
    rfl

end NodeEvents

/-! ## The cluster's controller -/

theorem Prescribes.wanted (h : Prescribes merge t c.cluster) (env : PassInputs) :
    Prescribes merge t (c.wanted env) := by
  unfold ClusterWorld.wanted
  split
  · exact ⟨h.name, h.shards, h.marked, h.seeds, h.persistent, h.patches⟩
  · exact h

theorem Prescribes.listed (h : Prescribes merge t c.cluster) (env : PassInputs)
    (hnodes : ∀ n ∈ c.nodes, LoadedNode merge t starts n) :
    ∀ n ∈ c.listed env, LoadedNode merge t starts n :=
  reconcileExposeAnnounce_kept ((h.wanted env).kept c.configHash starts) env.announce hnodes

theorem Prescribes.primary_mem {cluster : PerconaValkeyCluster} (h : Prescribes merge t cluster)
    (hlt : t.manifest.shards.length < 2 ^ 31) {shard : Nat}
    (hshard : shard < t.manifest.shards.length) : ⟨shard, 0⟩ ∈ desiredNodes cluster := by
  have hcount : cluster.spec.shards.toInt.toNat = t.manifest.shards.length := by
    rw [h.shards, Int32.toInt_ofNat_of_lt hlt]
    rfl
  refine List.mem_flatMap.mpr ⟨shard, ?_, List.mem_append_right _ (List.mem_singleton.mpr rfl)⟩
  rw [hcount]
  exact List.mem_range.mpr hshard

/-- Where every node has converged, every primary has loaded its dump. -/
theorem Prescribes.allLoaded (h : Prescribes merge t c.cluster)
    (hlt : t.manifest.shards.length < 2 ^ 31) {env : PassInputs} (hreach : ReachesEngines env c)
    (hnodes : ∀ n ∈ c.nodes, LoadedNode merge t starts n) : t.AllLoaded starts := by
  intro shard hshard
  have hwanted := h.wanted env
  have hkey := hwanted.primary_mem hlt hshard
  obtain ⟨n, hn, hconverged⟩ := hreach.converged ⟨shard, 0⟩ hkey
  obtain ⟨hmem, hname⟩ := mem_of_existing hn
  rw [hwanted.name] at hname
  have hnode := h.listed env hnodes n hmem
  have hkeyOf := hnode.key_unique hname
  have hloaded := hnode.loaded (by rw [← hkeyOf])
  rw [← hkeyOf] at hloaded
  exact hloaded (of_decide_eq_true hconverged).2.2.1

section ClusterEvents

variable {w : TargetWorld} (h : Good merge t w)
include h

theorem Good.retarget {c' : ClusterWorld} (hc : w.target = some c)
    (htarget : Prescribes merge t c'.cluster)
    (hslots : c'.status.conditionTrue .slotsAssigned = true → t.AllLoaded w.starts)
    (hnodes : ∀ n ∈ c'.nodes, LoadedNode merge t w.starts n) :
    Good merge t { w with target := some c', nodes := c'.nodes } where
  name := h.name
  spec := h.spec
  pending hphase := by
    rw [(h.pending hphase).1] at hc
    cases hc
  target _ hsome := by
    cases hsome
    exact htarget
  slots _ hsome := by
    cases hsome
    exact hslots
  nodes := hnodes
  runtime := h.runtime
  succeeded := h.succeeded

theorem Good.targeted {e : ClusterEvent}
    (he : ∀ c, w.target = some c → Good merge t { w with
      target := some ((w.controlled c).step e), nodes := ((w.controlled c).step e).nodes }) :
    Good merge t (match w.target with
      | none => w
      | some c =>
        let c' := (w.controlled c).step e
        { w with target := some c', nodes := c'.nodes }) := by
  split
  · exact h
  · rename_i c hc
    exact he c hc

theorem Good.pass (hlt : t.manifest.shards.length < 2 ^ 31) (hc : w.target = some c)
    (env : PassInputs) :
    Good merge t { w with
      target := some ((w.controlled c).step (.pass env))
      nodes := ((w.controlled c).step (.pass env)).nodes } := by
  have hcluster : Prescribes merge t (w.controlled c).cluster := h.target c hc
  have hnodes : ∀ n ∈ (w.controlled c).nodes, LoadedNode merge t w.starts n := h.nodes
  have hlisted := hcluster.listed env hnodes
  obtain ⟨hafter, hwritten⟩ := reconcile_upkeep env (w.controlled c)
  refine h.retarget hc ?_ ?_ ?_
  · change Prescribes merge t ((w.controlled c).reconcile env).pass.cluster
    rcases hafter with hafter | hafter <;> rw [hafter]
    · exact hcluster
    · exact hcluster.wanted env
  · change ((w.controlled c).reconcile env).pass.board.stored.conditionTrue _ = true → _
    rcases (reconcile_ended env (w.controlled c)).slotsAssigned with hsame | hreach
    · rw [hsame]
      exact h.slots c hc
    · exact fun _ => hcluster.allLoaded hlt hreach hnodes
  · change ∀ n ∈ ((w.controlled c).reconcile env).pass.nodes, _
    rcases hwritten with hsame | hsame | hwritten
    · rw [hsame]
      exact hnodes
    · rw [hsame]
      exact hlisted
    · exact written_kept ((hcluster.wanted env).kept _ _) hwritten hlisted

theorem Good.cluster (hlt : t.manifest.shards.length < 2 ^ 31) (e : ClusterEvent)
    (hallowed : Undisturbed merge t w (.cluster e)) :
    Good merge t (w.step merge (.cluster e)) := by
  cases e with
  | report status => exact h
  | vanish keep =>
    refine ⟨h.name, h.spec, fun hphase => ?_, h.target, h.slots,
      fun n hn => h.nodes n (List.mem_filter.mp hn).1, h.runtime, h.succeeded⟩
    obtain ⟨htarget, hnodes, hruntime⟩ := h.pending hphase
    refine ⟨htarget, ?_, hruntime⟩
    show w.nodes.filter keep = []
    rw [hnodes]
    rfl
  | edit spec crVersion configHash =>
    exact h.targeted fun c hc =>
      h.retarget hc (hallowed c hc) (h.slots c hc) h.nodes
  | annotate annotations =>
    exact h.targeted fun c hc =>
      h.retarget hc (hallowed c hc) (h.slots c hc) h.nodes
  | markDeleted =>
    exact h.targeted fun c hc =>
      h.retarget hc (h.target c hc) (h.slots c hc) h.nodes
  | leaseChange lease =>
    exact h.targeted fun c hc =>
      h.retarget hc (h.target c hc) (h.slots c hc) h.nodes
  | pass env => exact h.targeted fun c hc => h.pass hlt hc env

end ClusterEvents

/-! ## The passes of the restore -/

theorem Advance.of_pending {w : RestoreWorld} {phase : RestorePhase} (h : Advance w phase)
    (hphase : phase = .pending) : currentPhase w.restore = .pending := by
  cases h with
  | stay => exact hphase
  | fail => cases hphase
  | accept => cases hphase
  | provision => cases hphase
  | seed => cases hphase
  | form => cases hphase
  | succeed => cases hphase

theorem Advance.of_succeeded {w : RestoreWorld} {phase : RestorePhase} (h : Advance w phase)
    (hphase : phase = .succeeded) : currentPhase w.restore = .succeeded ∨
      ∃ cluster, w.cluster = some cluster ∧ clusterSlotsComplete cluster = true := by
  cases h with
  | stay => exact .inl hphase
  | fail => cases hphase
  | accept => cases hphase
  | provision => cases hphase
  | seed => cases hphase
  | form => cases hphase
  | succeed _ hcluster hslots _ => exact .inr ⟨_, hcluster, hslots⟩

theorem restoreMarkerAnnotations_congr {rst rst' : PerconaValkeyRestore} (hname : rst.name = rst'.name)
    (hspec : rst.spec = rst'.spec) (src : ResolvedSource) :
    restoreMarkerAnnotations rst src = restoreMarkerAnnotations rst' src := by
  unfold restoreMarkerAnnotations restoreMarkerValue
  rw [hname, hspec]

theorem Fits.newTarget (hfits : Fits merge t) (hbackup : t.source.backup ≠ [])
    (htemplate : env.template = t.template) {rst : PerconaValkeyRestore}
    (hname : rst.name = t.restore.name) (hspec : rst.spec = t.restore.spec) :
    Prescribes merge t (newTarget env rst t.source.toResolvedSource t.manifest) where
  name := congrArg RestoreSpec.clusterName hspec
  shards := rfl
  marked := by
    have hannotations : (Restore.newTarget env rst t.source.toResolvedSource t.manifest).annotations =
        putAll (restoreMarkerAnnotations rst t.source.toResolvedSource) ∅ := by rw [Restore.newTarget]
    rw [hannotations, restoreMarkerAnnotations_congr hname hspec]
    refine List.all_eq_true.mpr fun kv hkv => decide_eq_true ?_
    unfold StrMap.get
    rw [lookup_putAll_of_mem (restoreMarkerAnnotations_nodup _ _) hkv]
    rfl
  seeds shard := by
    obtain ⟨rs, hseed, hshard, hcluster, hname, hstorage, hsecret⟩ :=
      newTarget_restoreSource env rst t.manifest hbackup shard
    obtain ⟨storage, hsource, hsame⟩ := hfits.offers
    rw [htemplate, hsource] at hstorage hsecret
    exact ⟨rs, hseed, hshard, hcluster, hname, ⟨storage, hstorage, hsame⟩,
      hsecret.trans (credentialsSecretForStorage_of_same hsame)⟩
  persistent := by
    have hpersistent := hfits.persistent
    rw [← htemplate] at hpersistent
    exact hpersistent
  patches := by
    have hpatches := hfits.patches
    rw [← htemplate] at hpatches
    exact hpatches

section Pass

variable {w : TargetWorld}

theorem Good.restored (h : Good merge t w) (hfits : Fits merge t) (hbackup : t.source.backup ≠ [])
    {crVersion : Str} {lease : LeaseWorld}
    (hallowed : Undisturbed merge t w (.restore env crVersion configHash lease)) :
    w.restored ((reconcile env).after w.view).cluster crVersion configHash lease = w.target ∨
      currentPhase w.restore = .provisioning ∧
      ∃ cluster, w.restored ((reconcile env).after w.view).cluster crVersion configHash lease =
        some (createdCluster cluster crVersion configHash lease) ∧ Prescribes merge t cluster := by
  obtain ⟨hsource, hmanifest, htemplate, happeared⟩ := hallowed
  rw [reconcile_cluster]
  cases hc : w.target with
  | none =>
    have hview : w.view.cluster = none := by
      unfold TargetWorld.view
      rw [hc]
      rfl
    rcases clusterAfter_of_none hview happeared with hnone | ⟨hphase, src, man, hsrc, hman, hnew⟩
    · rw [hnone]
      exact .inl rfl
    · cases hsource src hsrc
      cases hmanifest man hman
      rw [hnew]
      unfold TargetWorld.restored
      rw [hc]
      exact .inr ⟨hphase, _, rfl, hfits.newTarget hbackup htemplate h.name h.spec⟩
  | some c =>
    have hview : w.view.cluster = some { c.cluster with status := c.status.published } := by
      unfold TargetWorld.view
      rw [hc]
      rfl
    rw [clusterAfter_of_marked hview]
    · unfold TargetWorld.restored
      rw [hc]
      exact .inl rfl
    · intro src hsrc
      cases hsource src hsrc
      have hmarked := (h.target c hc).marked
      rw [← restoreMarkerAnnotations_congr h.name h.spec] at hmarked
      exact hmarked

theorem Good.restore (h : Good merge t w) (hfits : Fits merge t) (hbackup : t.source.backup ≠ [])
    {crVersion : Str} {lease : LeaseWorld}
    (hallowed : Undisturbed merge t w (.restore env crVersion configHash lease)) :
    Good merge t (w.step merge (.restore env crVersion configHash lease)) := by
  have hadvance := reconcile_advance env w.view
  have hrestored := h.restored hfits hbackup hallowed
  refine ⟨(reconcile_name env w.view).trans h.name, (reconcile_spec env w.view).trans h.spec,
    fun hphase => ?_, fun c hc => ?_, fun c hc hslots => ?_, h.nodes, h.runtime, fun hphase => ?_⟩
  · have hpending : currentPhase w.restore = .pending := hadvance.of_pending hphase
    obtain ⟨htarget, hnodes, hruntime⟩ := h.pending hpending
    rcases hrestored with hsame | ⟨hprovisioning, -⟩
    · exact ⟨hsame.trans htarget, hnodes, hruntime⟩
    · rw [hpending] at hprovisioning
      cases hprovisioning
  · rcases hrestored with hsame | ⟨-, cluster, hnew, hprescribes⟩
    · exact h.target c (hsame.symm.trans hc)
    · cases hnew.symm.trans hc
      exact hprescribes
  · rcases hrestored with hsame | ⟨-, cluster, hnew, -⟩
    · exact h.slots c (hsame.symm.trans hc) hslots
    · cases hnew.symm.trans hc
      cases hslots
  · rcases hadvance.of_succeeded hphase with hbefore | ⟨cluster, hcluster, hslots⟩
    · exact h.succeeded hbefore
    · obtain ⟨c, hc, rfl⟩ := Option.map_eq_some_iff.mp hcluster
      exact h.slots c hc hslots

end Pass

/-! ## Whole runs -/

theorem Good.step (hfits : Fits merge t) (hbackup : t.source.backup ≠ []) {e : TargetEvent}
    (hallowed : Undisturbed merge t w e) (h : Good merge t w) : Good merge t (w.step merge e) := by
  cases e with
  | restore env crVersion configHash lease => exact h.restore hfits hbackup hallowed
  | create cluster crVersion configHash lease => exact hallowed.elim
  | remove =>
    refine ⟨h.name, h.spec, fun hphase => ⟨rfl, (h.pending hphase).2⟩, fun c hc => ?_,
      fun c hc => ?_, h.nodes, h.runtime, h.succeeded⟩
    · cases hc
    · cases hc
  | cluster e => exact h.cluster hfits.shards e hallowed
  | node name e => exact h.node name hfits.opens e hallowed

/-- A restore that has started in a namespace without its target, with a template that
reaches the source and keeps the dumps, whose target nobody else has created or changed in
what it prescribes, and whose Secret and configuration are as they should be whenever a pod of
a primary starts, has succeeded only if every primary has been started from its dump. -/
theorem succeeded_loaded (merge : Merge) {t : RestoreTask}
    {backups : Except Err (List PerconaValkeyBackup)} {start w : TargetWorld}
    (hsource : resolveSource backups t.restore = .ok t.source) (hfits : Fits merge t)
    (hvacant : Vacant t start)
    (hrun : Runs (TargetWorld.step merge) (Undisturbed merge t) start w)
    (hphase : currentPhase w.restore = .succeeded) : t.AllLoaded w.starts := by
  have hgood : Good merge t w :=
    hrun.preserves (fun _ _ hallowed h => h.step hfits (resolveSource_backup hsource) hallowed)
      hvacant.good
  exact hgood.succeeded hphase

/-! ## One shard, restored and adopted -/

/-- The restore of the bucket's one shard, with a template that fits. -/
def bucketTask : RestoreTask where
  restore := pendingWorld.restore
  source := bucketSource
  manifest := oneShardManifest
  template := some fittingTemplate

/-- The restore is there, and nothing else. -/
def bareNamespace : TargetWorld := { restore := pendingWorld.restore }

theorem bareNamespace_vacant : Vacant bucketTask bareNamespace where
  restore := rfl
  pending := by decide
  target := rfl
  nodes := rfl
  runtime _ := ⟨rfl, rfl, rfl⟩
  starts := rfl

theorem bucketTask_fits : Fits noPatch bucketTask where
  opens := ⟨_, rfl⟩
  offers := ⟨_, rfl, rfl, _, rfl, rfl⟩
  persistent := rfl
  patches patch hpatch := nomatch hpatch
  shards := by decide

/-- An engine that owns all slots. -/
def soloEngine (_ : Str) : NodeState × Bool := (pairPrimary, true)

def restorePass : TargetEvent :=
  .restore (bucketEnv bucketTask.template) "1.0" "h1" noBackup

def soloPass : TargetEvent := .cluster (.pass (quietInputs soloEngine))

/-- The credentials, and the file of a cluster with a setting of the user's. -/
def bucketFound : Found where
  secret _ := [("AWS_ACCESS_KEY_ID", "id"),
    ("AWS_SECRET_ACCESS_KEY", "key")]
  conf := renderServerConfig { acl := true, userConfig := AList.insert "maxmemory" "1gb" ∅ }

theorem bucketFound_finds : Finds bucketTask bucketFound where
  apart := by decide +kernel
  vars := by decide +kernel
  conf := by decide +kernel

/-- The node's controller and its pod, until the node is ready. -/
def comesUp : List TargetEvent :=
  let claim : PersistentVolumeClaim :=
    { name := "valkey-prod-0-0-data", phase := some .bound
      capacity := some ⟨"1Gi", 1073741824⟩ }
  let events : List NodeEvent :=
    [.fetch, .apply {}, .createPod "valkey-prod-0-0-0" "10.0.0.1",
      .start "valkey-prod-0-0-0" bucketFound, .probe fun _ => true, .look { getPVC := .ok (some claim) },
      .report {}]
  events.map (.node "prod-0-0")

def restoredNamespace : TargetWorld :=
  ([restorePass, restorePass, restorePass, soloPass] ++ comesUp ++
    [soloPass, restorePass, restorePass]).foldl (TargetWorld.step noPatch) bareNamespace

theorem restoredNamespace_run :
    Runs (TargetWorld.step noPatch) (Undisturbed noPatch bucketTask) bareNamespace
      restoredNamespace := by
  have hpass : ∀ w, Undisturbed noPatch bucketTask w restorePass := by
    refine fun w => ⟨fun src hsrc => ?_, fun man hman => ?_, rfl, rfl⟩
    · cases hsrc
      rfl
    · cases hman
      rfl
  have hnode : ∀ e ∈ comesUp, ∀ w, Undisturbed noPatch bucketTask w e := by
    simp only [comesUp, List.forall_mem_map, List.forall_mem_cons]
    exact ⟨fun _ => trivial, fun _ => trivial, fun _ => trivial,
      fun _ _ _ => bucketFound_finds, fun _ => trivial, fun _ => trivial, fun _ => trivial,
      List.forall_mem_nil _⟩
  refine Runs.of_forall ?_ bareNamespace
  simp only [List.forall_mem_append, List.forall_mem_cons]
  exact ⟨⟨⟨hpass, hpass, hpass, fun _ => trivial, List.forall_mem_nil _⟩, hnode⟩,
    fun _ => trivial, hpass, hpass, List.forall_mem_nil _⟩

theorem succeeded_loaded_bucket :
    currentPhase restoredNamespace.restore = .succeeded ∧
      bucketTask.AllLoaded restoredNamespace.starts := by
  have hphase : currentPhase restoredNamespace.restore = .succeeded := by decide +kernel
  have hsource : resolveSource (.ok [bucketBackup]) bucketTask.restore = .ok bucketTask.source := rfl
  exact ⟨hphase, succeeded_loaded noPatch hsource bucketTask_fits bareNamespace_vacant
    restoredNamespace_run hphase⟩

/-- A cluster of the target's name has been created by a user and has formed. -/
def takenNamespace : TargetWorld :=
  ([.create { name := "prod", spec := { shards := 1 } } "1.0" "h1" noBackup,
    soloPass] ++ comesUp ++ [soloPass]).foldl (TargetWorld.step noPatch) bareNamespace

def adoptedNamespace : TargetWorld :=
  (List.replicate 5 restorePass).foldl (TargetWorld.step noPatch) takenNamespace

/-- Five passes over it end in success, and no engine has been started since the first. -/
theorem succeeded_without_load :
    Runs (TargetWorld.step noPatch) (fun _ _ => True) bareNamespace adoptedNamespace ∧
      resolveSource (.ok [bucketBackup]) bucketTask.restore = .ok bucketTask.source ∧
      Fits noPatch bucketTask ∧ currentPhase takenNamespace.restore = .pending ∧
      currentPhase adoptedNamespace.restore = .succeeded ∧
      ¬ bucketTask.AllLoaded adoptedNamespace.starts := by
  have hrun : Runs (TargetWorld.step noPatch) (fun _ _ => True) bareNamespace takenNamespace :=
    Runs.of_events (fun _ _ => trivial) _ _
  have hstarts : adoptedNamespace.starts = [] := by
    refine List.isEmpty_iff.mp ?_
    decide +kernel
  refine ⟨hrun.trans (Runs.of_events (fun _ _ => trivial) _ _), rfl, bucketTask_fits, ?_, ?_, ?_⟩
  · decide +kernel
  · decide +kernel
  · intro hall
    obtain ⟨st, hst, -⟩ := hall 0 (by decide)
    rw [hstarts] at hst
    cases hst

end ValkeyOperator.Restore

import ValkeyOperator.Lib.Calls
import ValkeyOperator.Node.Status
import ValkeyOperator.Cluster.Nodes

/-! The passes of the node controller among the other actors
(`valkeynode/valkeynode_controller.go`).

A pass reads the node once, applies the workload rendered from it, looks at the
pods and writes the status. Between these points the cluster controller may stamp
another spec and the workload controller may replace pods. The status names the
generation the pass has read, but nothing relates the pod it has seen to the
template it has applied. -/

namespace ValkeyOperator.Node
open Text Valkey Api

variable {pods : List Pod} {env : NodeEnv} {s : System} {node : ValkeyNode}

/-! ## One pass, stage by stage -/

/-- What a pass meets at the API server and at the engine. -/
structure NodeEnv where
  /-- errors of `ensureConfigMap` and of `ensurePVC` -/
  configMap : Option Err := none
  ensurePVC : Option Err := none
  writeWorkload : Option Fault := none
  getPVC : Except Err (Option PersistentVolumeClaim) := .ok none
  listPods : Option Err := none
  connect : Option Err := none
  configSet : Str → Str → Option Err := fun _ _ => none
  infoReplication : Except Err StrMap := .ok ∅
  writeStatus : Option Fault := none

/-- The node with `Ready` false for a reason. -/
def failNode (node : ValkeyNode) (reason : Str) (e : Err) : ValkeyNode :=
  setCondition { node with status := { node.status with ready := false } } .ready false reason e.msg

def guardWorkloadType (node : ValkeyNode) : Except Err Unit :=
  if node.spec.workloadType = .deployment ∧ node.spec.persistence.isSome then
    .error ⟨"persistence is forbidden with workloadType Deployment", false⟩
  else .ok ()

variable (merge : Merge)

/-- The phases up to the workload: the template that is to be applied, or the reason
and the error a pass fails with. -/
def workloadPhase (env : NodeEnv) (node : ValkeyNode) : Except (Str × Err) PodTemplate :=
  match guardWorkloadType node with
  | .error e => .error ("InvalidWorkloadType", e)
  | .ok () =>
    match (if node.spec.serverConfigMapName ≠ [] then none else env.configMap) with
    | some e => .error ("ConfigMap", e)
    | none =>
      match (if node.spec.persistence.isSome then env.ensurePVC else none) with
      | some e => .error ("PersistentVolumeClaim", e)
      | none =>
        match render merge node with
        | .error e => .error ("Workload", e)
        | .ok template => .ok template

/-- The volume conditions and the look at the pods. -/
def podPhase (env : NodeEnv) (node : ValkeyNode) (pods : List Pod) :
    Except (ValkeyNode × Str × Err) (ValkeyNode × Option Pod) :=
  match setPVCConditions node env.getPVC with
  | .error e => .error (node, "PersistentVolumeClaim", e)
  | .ok node =>
    match env.listPods with
    | some e =>
      .error (node, "PodLookup", Err.wrap ("list pods for node " ++ node.name) e)
    | none => .ok (refreshInMemoryStatus node (getManagedPod pods), getManagedPod pods)

/-- The node whose status a pass writes at its end. -/
def statusPhase (env : NodeEnv) (node : ValkeyNode) (pod : Option Pod) : ValkeyNode :=
  if !isPodReady pod then
    match deriveStatus node pod none with
    | .error e => failNode node "Status" e
    | .ok node => node
  else
    match env.connect with
    | some e => failNode node "Connect" e
    | none =>
      match applyLiveConfig env.configSet node with
      | (node, some e) => failNode node "LiveConfigApplyFailed" e
      | (node, none) =>
        match deriveStatus node pod (some env.infoReplication) with
        | .error e => failNode node "Status" e
        | .ok node =>
          { node with status := { node.status with observedGeneration := node.generation } }

/-! ## The actors -/

/-- Where a pass stands; it carries the node as it has read it. -/
inductive Stage where
  | idle
  | fetched (node : ValkeyNode)
  | applied (node : ValkeyNode)
  | seen (node : ValkeyNode) (pod : Option Pod)

/-- A node with its workload's template, the pods that carry its labels and the
pass of its controller. -/
structure System where
  node : ValkeyNode
  workload : Option PodTemplate := none
  pods : List Pod := []
  stage : Stage := .idle

/-- The status write of a pass, which ends it. -/
def System.write (s : System) (env : NodeEnv) (node : ValkeyNode) : System :=
  if Fault.stops env.writeStatus then { s with stage := .idle }
  else { s with node := { s.node with status := node.status }, stage := .idle }

def System.fetch (s : System) : System :=
  match s.stage with
  | .idle => { s with stage := .fetched s.node }
  | _ => s

def System.apply (s : System) (env : NodeEnv) : System :=
  match s.stage with
  | .fetched node =>
    match workloadPhase merge env node with
    | .error (reason, e) => s.write env (failNode node reason e)
    | .ok template =>
      let applied := { s with workload := some template, stage := .applied node }
      match env.writeWorkload with
      | none => applied
      | some (.refused e) => s.write env (failNode node "Workload" e)
      | some (.lost e) => applied.write env (failNode node "Workload" e)
  | _ => s

def System.look (s : System) (env : NodeEnv) : System :=
  match s.stage with
  | .applied node =>
    match podPhase env node s.pods with
    | .error (node, reason, e) => s.write env (failNode node reason e)
    | .ok (node, pod) => { s with stage := .seen node pod }
  | _ => s

def System.report (s : System) (env : NodeEnv) : System :=
  match s.stage with
  | .seen node pod => s.write env (statusPhase env node pod)
  | _ => s

/-- Another spec is stamped on the node by the cluster controller. -/
def System.stamp (s : System) (spec : ValkeyNodeSpec) : System :=
  { s with node := Cluster.ValkeyNode.written s.node s.node.labels spec }

/-- The workload controller creates a pod from the present template. -/
def System.createPod (s : System) (name ip : Str) : System :=
  match s.workload with
  | some template => { s with pods := s.pods ++ [{ name := name, ip := ip, template := template }] }
  | none => s

def System.removePods (s : System) (keep : Pod → Bool) : System :=
  { s with pods := s.pods.filter keep }

def System.probe (s : System) (ready : Pod → Bool) : System :=
  { s with pods := s.pods.map fun p => { p with ready := ready p } }

/-- The interleavings; `allowed` restricts the states in which a pass looks at
the pods. -/
inductive Step (allowed : System → Prop) : System → System → Prop
  | fetch (s : System) : Step allowed s s.fetch
  | apply (s : System) (env : NodeEnv) : Step allowed s (s.apply merge env)
  | look (s : System) (env : NodeEnv) (h : allowed s) : Step allowed s (s.look env)
  | report (s : System) (env : NodeEnv) : Step allowed s (s.report env)
  | abandon (s : System) : Step allowed s { s with stage := .idle }
  | stamp (s : System) (spec : ValkeyNodeSpec) : Step allowed s (s.stamp spec)
  | createPod (s : System) (name ip : Str) : Step allowed s (s.createPod name ip)
  | removePods (s : System) (keep : Pod → Bool) : Step allowed s (s.removePods keep)
  | probe (s : System) (ready : Pod → Bool) : Step allowed s (s.probe ready)

/-- A node that has just been created. -/
def System.created (node : ValkeyNode) : System where
  node := { node with generation := 1, status := {} }

/-! ## What a pod was created from -/

/-- The template renders some node with this image and config hash. -/
def BuiltFor (spec : ValkeyNodeSpec) (template : PodTemplate) : Prop :=
  ∃ node : ValkeyNode, node.spec.image = spec.image ∧
    node.spec.serverConfigHash = spec.serverConfigHash ∧ render merge node = .ok template

/-- A node that reports ready at its present generation runs what is stamped on
it: its single Ready pod was created for the stamped image and config hash. -/
def RunsStamped (s : System) : Prop :=
  s.node.status.ready = true → s.node.status.observedGeneration = s.node.generation →
    ∀ pod, getManagedPod s.pods = some pod → pod.ready = true →
      BuiltFor merge s.node.spec pod.template

/-- A single Ready pod was created for the image and the hash the pass has just
applied: the workload controller has already replaced an older one. -/
def Replaced (s : System) : Prop :=
  ∀ node pod, s.stage = .applied node → getManagedPod s.pods = some pod → pod.ready = true →
    BuiltFor merge node.spec pod.template

/-! ## What the phases leave of the node they have read -/

variable {merge}

theorem workloadPhase_ok {template : PodTemplate}
    (h : workloadPhase merge env node = .ok template) : render merge node = .ok template := by
  unfold workloadPhase at h
  split at h
  · cases h
  split at h
  · cases h
  split at h
  · cases h
  split at h
  · cases h
  · cases h
    assumption

theorem podPhase_ok {node' : ValkeyNode} {pod : Option Pod}
    (h : podPhase env node pods = .ok (node', pod)) :
    Refreshed node node' ∧ pod = getManagedPod pods := by
  unfold podPhase at h
  split at h
  · cases h
  · rename_i hpvc
    split at h
    · cases h
    · cases h
      exact ⟨(refreshed_setPVCConditions hpvc).trans (refreshed_inMemoryStatus ..), rfl⟩

theorem podPhase_error {node' : ValkeyNode} {reason : Str} {e : Err}
    (h : podPhase env node pods = .error (node', reason, e)) : Refreshed node node' := by
  unfold podPhase at h
  split at h
  · cases h
    exact .refl node
  · rename_i hpvc
    split at h
    · cases h
      exact refreshed_setPVCConditions hpvc
    · cases h

/-- The generation is recorded as observed, or what was recorded before stays; a
ready node has had a Ready pod and records its generation. -/
theorem statusPhase_spec (env : NodeEnv) (node : ValkeyNode) (pod : Option Pod) :
    ((statusPhase env node pod).status.observedGeneration = node.status.observedGeneration ∧
      (statusPhase env node pod).status.ready = false) ∨
    ((statusPhase env node pod).status.observedGeneration = node.generation ∧
      ((statusPhase env node pod).status.ready = true → isPodReady pod = true)) := by
  unfold statusPhase
  split
  · rename_i hpod
    split
    · exact .inl ⟨rfl, rfl⟩
    · rename_i node' hderive
      obtain ⟨hrefreshed, hready⟩ := deriveStatus_spec hderive
      refine .inl ⟨hrefreshed.observed, Bool.eq_false_iff.mpr fun hr => ?_⟩
      rw [hready hr] at hpod
      cases hpod
  · split
    · exact .inl ⟨rfl, rfl⟩
    · have hlive := refreshed_applyLiveConfig env.configSet node
      generalize applyLiveConfig env.configSet node = r at hlive ⊢
      obtain ⟨node', err⟩ := r
      cases err with
      | some e => exact .inl ⟨hlive.observed, rfl⟩
      | none =>
        dsimp only
        split
        · exact .inl ⟨hlive.observed, rfl⟩
        · rename_i hderive
          obtain ⟨hrefreshed, hready⟩ := deriveStatus_spec hderive
          exact .inr ⟨(hlive.trans hrefreshed).generation, hready⟩

/-! ## The invariant -/

/-- A node as a pass has read it, against the present one. -/
structure Snapshot (current node : ValkeyNode) : Prop where
  generation_le : node.generation ≤ current.generation
  spec_eq : node.generation = current.generation → node.spec = current.spec
  reported_le : current.status.observedGeneration ≤ node.generation
  observed_le : node.status.observedGeneration ≤ node.generation

theorem Snapshot.refreshed {current a b : ValkeyNode} (h : Snapshot current a)
    (hab : Refreshed a b) : Snapshot current b := by
  refine ⟨?_, ?_, ?_, ?_⟩
  · rw [hab.generation]
    exact h.generation_le
  · rw [hab.generation, hab.spec]
    exact h.spec_eq
  · rw [hab.generation]
    exact h.reported_le
  · rw [hab.generation, hab.observed]
    exact h.observed_le

variable (merge) in
def WorkloadFor (spec : ValkeyNodeSpec) (workload : Option PodTemplate) : Prop :=
  ∀ template, workload = some template → BuiltFor merge spec template

variable (merge) in
def PodsFor (spec : ValkeyNodeSpec) (pods : List Pod) : Prop :=
  ∀ pod ∈ pods, BuiltFor merge spec pod.template

variable (merge) in
/-- What a pass has secured when it stands at a stage: from the look at a Ready
pod on, every pod was created for what the pass has read. -/
def StageHolds (s : System) : Stage → Prop
  | .idle => True
  | .fetched node => Snapshot s.node node
  | .applied node => Snapshot s.node node ∧ WorkloadFor merge node.spec s.workload
  | .seen node pod => Snapshot s.node node ∧ WorkloadFor merge node.spec s.workload ∧
      (isPodReady pod = true → PodsFor merge node.spec s.pods)

variable (merge) in
structure Consistent (s : System) : Prop where
  observed_le : s.node.status.observedGeneration ≤ s.node.generation
  running : s.node.status.ready = true → s.node.status.observedGeneration = s.node.generation →
    WorkloadFor merge s.node.spec s.workload ∧ PodsFor merge s.node.spec s.pods
  stage : StageHolds merge s s.stage

theorem Consistent.holds (h : Consistent merge s) {stage : Stage} (hstage : s.stage = stage) :
    StageHolds merge s stage := hstage ▸ h.stage

/-- A status write keeps the invariant if it says no more than is secured. -/
theorem Consistent.write (h : Consistent merge s) (env : NodeEnv)
    (hle : node.status.observedGeneration ≤ s.node.generation)
    (hrunning : node.status.ready = true →
      node.status.observedGeneration = s.node.generation →
      WorkloadFor merge s.node.spec s.workload ∧ PodsFor merge s.node.spec s.pods) :
    Consistent merge (s.write env node) := by
  unfold System.write
  split
  · exact ⟨h.observed_le, h.running, trivial⟩
  · exact ⟨hle, hrunning, trivial⟩

theorem Consistent.write_failed (h : Consistent merge s) (env : NodeEnv)
    (hsnap : Snapshot s.node node) (reason : Str) (e : Err) :
    Consistent merge (s.write env (failNode node reason e)) :=
  h.write env (hsnap.observed_le.trans hsnap.generation_le) fun hready => nomatch hready

theorem Consistent.fetch (h : Consistent merge s) : Consistent merge s.fetch := by
  unfold System.fetch
  split
  · exact ⟨h.observed_le, h.running, ⟨Int.le_refl _, fun _ => rfl, h.observed_le, h.observed_le⟩⟩
  · exact h

theorem Consistent.apply (h : Consistent merge s) (env : NodeEnv) :
    Consistent merge (s.apply merge env) := by
  unfold System.apply
  split
  · rename_i node hstage
    have hsnap : Snapshot s.node node := h.holds hstage
    split
    · exact h.write_failed env hsnap _ _
    · rename_i template hphase
      have hnew : WorkloadFor merge node.spec (some template) := by
        intro t ht
        cases ht
        exact ⟨node, rfl, rfl, workloadPhase_ok hphase⟩
      have happlied : Consistent merge
          { s with workload := some template, stage := .applied node } := by
        refine ⟨h.observed_le, fun hready hobserved => ?_, hsnap, hnew⟩
        -- a pass over an older generation means that this one is not yet reported
        have hgen : node.generation = s.node.generation := by
          have := hsnap.reported_le
          have := hsnap.generation_le
          dsimp only at hobserved
          omega
        exact ⟨hsnap.spec_eq hgen ▸ hnew, (h.running hready hobserved).2⟩
      dsimp only
      split
      · exact happlied
      · exact h.write_failed env hsnap _ _
      · exact happlied.write_failed env hsnap _ _
  · exact h

theorem getManagedPod_eq_some {pod : Pod} (h : getManagedPod pods = some pod) : pods = [pod] := by
  unfold getManagedPod at h
  split at h
  · cases h
    rfl
  · cases h

theorem Consistent.look (h : Consistent merge s) (hreplaced : Replaced merge s) (env : NodeEnv) :
    Consistent merge (s.look env) := by
  unfold System.look
  split
  · rename_i node hstage
    obtain ⟨hsnap, hworkload⟩ := h.holds hstage
    split
    · rename_i hphase
      exact h.write_failed env (hsnap.refreshed (podPhase_error hphase)) _ _
    · rename_i node' pod hphase
      obtain ⟨hrefreshed, rfl⟩ := podPhase_ok hphase
      refine ⟨h.observed_le, h.running, hsnap.refreshed hrefreshed, ?_, fun hready => ?_⟩
      · rw [hrefreshed.spec]
        exact hworkload
      · rw [hrefreshed.spec]
        cases hpod : getManagedPod s.pods with
        | none =>
          rw [hpod] at hready
          cases hready
        | some p =>
          rw [hpod] at hready
          have hbuilt := hreplaced node p hstage hpod hready
          intro q hq
          dsimp only at hq
          rw [getManagedPod_eq_some hpod, List.mem_singleton] at hq
          exact hq ▸ hbuilt
  · exact h

theorem Consistent.report (h : Consistent merge s) (env : NodeEnv) :
    Consistent merge (s.report env) := by
  unfold System.report
  split
  · rename_i node pod hstage
    obtain ⟨hsnap, hworkload, hpods⟩ := h.holds hstage
    rcases statusPhase_spec env node pod with ⟨hobserved, hready⟩ | ⟨hobserved, hready⟩
    · refine h.write env ?_ fun hr => ?_
      · rw [hobserved]
        exact hsnap.observed_le.trans hsnap.generation_le
      · rw [hready] at hr
        cases hr
    · refine h.write env ?_ fun hr hgen => ?_
      · rw [hobserved]
        exact hsnap.generation_le
      · rw [hobserved] at hgen
        rw [← hsnap.spec_eq hgen]
        exact ⟨hworkload, hpods (hready hr)⟩
  · exact h

theorem Consistent.stamp (h : Consistent merge s) (spec : ValkeyNodeSpec) :
    Consistent merge (s.stamp spec) := by
  by_cases hspec : spec = s.node.spec
  · have hsame : s.stamp spec = s := by
      unfold System.stamp Cluster.ValkeyNode.written
      rw [if_pos hspec, hspec]
    rw [hsame]
    exact h
  · have hgen : (s.stamp spec).node.generation = s.node.generation + 1 := if_neg hspec
    have hle := h.observed_le
    have hsnap : ∀ {node}, Snapshot s.node node → Snapshot (s.stamp spec).node node := by
      intro node hnode
      have := hnode.generation_le
      exact ⟨by omega, fun heq => by omega, hnode.reported_le, hnode.observed_le⟩
    refine ⟨?_, fun _ hobserved => ?_, ?_⟩
    · change s.node.status.observedGeneration ≤ _
      omega
    · change s.node.status.observedGeneration = _ at hobserved
      omega
    · change StageHolds merge (s.stamp spec) s.stage
      cases hstage : s.stage with
      | idle => trivial
      | fetched node => exact hsnap (h.holds hstage)
      | applied node => exact ⟨hsnap (h.holds hstage).1, (h.holds hstage).2⟩
      | seen node pod => exact ⟨hsnap (h.holds hstage).1, (h.holds hstage).2⟩

/-- New pods that are created for whatever the old ones and the workload were
created for keep the invariant. -/
theorem Consistent.withPods (h : Consistent merge s)
    (hpods : ∀ spec, WorkloadFor merge spec s.workload → PodsFor merge spec s.pods →
      PodsFor merge spec pods) : Consistent merge { s with pods := pods } := by
  refine ⟨h.observed_le, fun hready hobserved => ?_, ?_⟩
  · obtain ⟨hw, hp⟩ := h.running hready hobserved
    exact ⟨hw, hpods _ hw hp⟩
  · change StageHolds merge { s with pods := pods } s.stage
    cases hstage : s.stage with
    | idle => trivial
    | fetched node => exact h.holds hstage
    | applied node => exact h.holds hstage
    | seen node pod =>
      obtain ⟨hsnap, hw, hp⟩ := h.holds hstage
      exact ⟨hsnap, hw, fun hready => hpods _ hw (hp hready)⟩

theorem Consistent.createPod (h : Consistent merge s) (name ip : Str) :
    Consistent merge (s.createPod name ip) := by
  unfold System.createPod
  split
  · rename_i template hworkload
    refine h.withPods fun spec hw hp pod hpod => ?_
    rcases List.mem_append.mp hpod with hpod | hpod
    · exact hp pod hpod
    · rw [List.mem_singleton.mp hpod]
      exact hw template hworkload
  · exact h

theorem Consistent.removePods (h : Consistent merge s) (keep : Pod → Bool) :
    Consistent merge (s.removePods keep) :=
  h.withPods fun _ _ hp pod hpod => hp pod (List.mem_filter.mp hpod).1

theorem Consistent.probe (h : Consistent merge s) (ready : Pod → Bool) :
    Consistent merge (s.probe ready) := by
  refine h.withPods fun spec _ hp pod hpod => ?_
  obtain ⟨old, hold, rfl⟩ := List.mem_map.mp hpod
  exact hp old hold

theorem Step.consistent {s' : System} (hstep : Step merge (Replaced merge) s s')
    (h : Consistent merge s) : Consistent merge s' := by
  cases hstep with
  | fetch => exact h.fetch
  | apply env => exact h.apply env
  | look env hreplaced => exact h.look hreplaced env
  | report env => exact h.report env
  | abandon => exact ⟨h.observed_le, h.running, trivial⟩
  | stamp spec => exact h.stamp spec
  | createPod name ip => exact h.createPod name ip
  | removePods keep => exact h.removePods keep
  | probe ready => exact h.probe ready

theorem run_consistent
    (hrun : Relation.ReflTransGen (Step merge (Replaced merge)) (.created node) s) :
    Consistent merge s := by
  induction hrun with
  | refl =>
    refine ⟨?_, fun hready => ?_, trivial⟩
    · show (0 : Int) ≤ 1
      decide
    · cases hready
  | tail _ hstep ih => exact hstep.consistent ih

/-- If every pass that looks at the pods finds older ones already replaced, then
along every interleaving a node that reports ready at its present generation runs
what is stamped on it. -/
theorem run_runsStamped (merge : Merge) (node : ValkeyNode)
    (s : System) (hrun : Relation.ReflTransGen (Step merge (Replaced merge)) (.created node) s) :
    RunsStamped merge s := by
  intro hready hobserved pod hpod _
  have hpods := ((run_consistent hrun).running hready hobserved).2
  refine hpods pod ?_
  rw [getManagedPod_eq_some hpod]
  exact List.mem_singleton.mpr rfl

def bootNode : ValkeyNode :=
  { name := "prod-0-0"
    spec := { image := "valkey:8", serverConfigHash := "h1" } }

/-- A merge that keeps the base; no patches are merged here. -/
def noPatch : Merge := fun base _ => .ok base

/-- The pod has come up and is about to be looked at. -/
def bootedSystem : System :=
  let applied := (System.created bootNode).fetch.apply noPatch {}
  (applied.createPod "valkey-prod-0-0-0" "10.0.0.1").probe fun _ => true

def reportedSystem : System := (bootedSystem.look {}).report {}

theorem bootedSystem_run (allowed : System → Prop) :
    Relation.ReflTransGen (Step noPatch allowed) (.created bootNode) bootedSystem := by
  have happlied := (Relation.ReflTransGen.refl (r := Step noPatch allowed)).tail
    (.fetch (.created bootNode)) |>.tail (.apply _ {})
  exact (happlied.tail (.createPod _ _ _)).tail (.probe _ _)

theorem reportedSystem_run (allowed : System → Prop) (h : allowed bootedSystem) :
    Relation.ReflTransGen (Step noPatch allowed) (.created bootNode) reportedSystem :=
  .tail (.tail (bootedSystem_run allowed) (.look _ {} h)) (.report _ {})

theorem reportedSystem_runsStamped :
    reportedSystem.node.status.ready = true ∧
      reportedSystem.node.status.observedGeneration = reportedSystem.node.generation ∧
      (getManagedPod reportedSystem.pods).isSome = true ∧ RunsStamped noPatch reportedSystem := by
  refine ⟨by decide, by decide, by decide, run_runsStamped _ bootNode _ (reportedSystem_run _ ?_)⟩
  intro node pod hstage hpod _
  cases hstage
  cases hpod
  exact ⟨_, rfl, rfl, rfl⟩

/-- Another config hash is stamped, and the next pass runs before the workload
controller has acted. -/
def hastySystem : System :=
  let spec := { reportedSystem.node.spec with serverConfigHash := "h2" }
  (((reportedSystem.stamp spec).fetch.apply noPatch {}).look {}).report {}

/-- The pod of the old hash is reported ready at the new generation. -/
theorem hastySystem_not_runsStamped :
    Relation.ReflTransGen (Step noPatch fun _ => True) (.created bootNode) hastySystem ∧
      ¬ RunsStamped noPatch hastySystem := by
  constructor
  · have hstamped := (reportedSystem_run (fun _ => True) trivial).tail
      (.stamp _ { reportedSystem.node.spec with serverConfigHash := "h2" })
    exact (((hstamped.tail (.fetch _)).tail (.apply _ {})).tail (.look _ {} trivial)).tail
      (.report _ {})
  · intro h
    obtain ⟨pod, hpod⟩ := Option.isSome_iff_exists.mp
      (show (getManagedPod hastySystem.pods).isSome = true by decide)
    have hready : pod.ready = true := by
      cases hpod
      rfl
    obtain ⟨node, -, hhash, hrender⟩ := h (by decide) (by decide) pod hpod hready
    have hshown := render_configHash hrender
    rw [hhash] at hshown
    cases hpod
    exact absurd hshown (by decide)

end ValkeyOperator.Node

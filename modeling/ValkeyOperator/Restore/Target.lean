import ValkeyOperator.Cluster.Upkeep
import ValkeyOperator.Node.Reconcile
import ValkeyOperator.Restore.Passes

/-! A restore and everything under the name of its target.

Three controllers work one upon the other: the restore marks the cluster, the cluster
prescribes its nodes, and a node's controller applies a workload whose pods the kubelet
starts, the engine only after the init containers. Each reads what the others have
stored, in any order and as often as it comes to it. -/

namespace ValkeyOperator.Restore
open Text Valkey Api
open Cluster ValkeyOperator.Node
open Backup (LeaseWorld)

/-! ## What there is -/

/-- A pod, and whether its engine has been started. -/
structure LivePod where
  pod : Pod
  running : Bool := false

/-- What belongs to a node of a name: the template of its workload, its pods, and how far
the pass of its controller is. -/
structure Runtime where
  workload : Option PodTemplate := none
  pods : List LivePod := []
  stage : Stage := .idle

/-- What the containers of a pod find when they are started: the Secrets of the namespace and
the mounted `valkey.conf`. -/
structure Found where
  secret : Str → List (Str × Str) := fun _ => []
  conf : Str := []

/-- An engine that was started, in a pod of the node. -/
structure Start where
  node : Str
  template : PodTemplate
  found : Found

structure TargetWorld where
  restore : PerconaValkeyRestore
  /-- the cluster of the target's name; its nodes are kept apart, as they may outlive it -/
  target : Option ClusterWorld := none
  nodes : List ValkeyNode := []
  runtime : Str → Runtime := fun _ => {}
  /-- the engines started since the restore was accepted -/
  starts : List Start := []

/-- A cluster as it is when it has just been created. -/
def createdCluster (cluster : PerconaValkeyCluster) (crVersion configHash : Str)
    (lease : LeaseWorld) : ClusterWorld where
  cluster := cluster
  crVersion := crVersion
  configHash := configHash
  lease := lease

/-- What a pass of the restore reads. -/
def TargetWorld.view (w : TargetWorld) : RestoreWorld where
  restore := w.restore
  cluster := w.target.map fun c => { c.cluster with status := c.status.published }

/-- The cluster's controller, over the nodes there are. -/
def TargetWorld.controlled (w : TargetWorld) (c : ClusterWorld) : ClusterWorld :=
  { c with nodes := w.nodes }

/-! ## Nodes, workloads and pods -/

inductive NodeEvent where
  /-- the pass of the node's controller, in its stages -/
  | fetch
  | apply (env : NodeEnv)
  | look (env : NodeEnv)
  | report (env : NodeEnv)
  | abandon
  /-- the workload goes with the node it belongs to -/
  | collect
  | createPod (pod ip : Str)
  | removePods (keep : Pod → Bool)
  /-- the init containers of the pods of that name have come to their end, and the engine
  is started -/
  | start (pod : Str) (found : Found)
  | probe (ready : Pod → Bool)

def Runtime.system (rt : Runtime) (n : ValkeyNode) : System where
  node := n
  workload := rt.workload
  pods := rt.pods.map (·.pod)
  stage := rt.stage

/-- A stage of the pass over the node of a name, if there is one. -/
def TargetWorld.control (w : TargetWorld) (name : Str) (f : System → System) : TargetWorld :=
  match existing w.nodes name with
  | none => w
  | some n =>
    let rt := w.runtime name
    let s := f (rt.system n)
    { w with
      nodes := w.nodes.map fun m =>
        if m.name = name then { m with status := s.node.status } else m
      runtime := Function.update w.runtime name
        { rt with workload := s.workload, stage := s.stage } }

def TargetWorld.setRuntime (w : TargetWorld) (name : Str) (rt : Runtime) : TargetWorld :=
  { w with runtime := Function.update w.runtime name rt }

def Runtime.createPod (rt : Runtime) (pod ip : Str) : Runtime :=
  match rt.workload with
  | some template =>
    { rt with pods := rt.pods ++ [{ pod := { name := pod, ip := ip, template := template } }] }
  | none => rt

def LivePod.starting (pod : Str) (p : LivePod) : Bool := p.pod.name = pod && !p.running

def Runtime.startPods (rt : Runtime) (pod : Str) : Runtime :=
  { rt with pods := rt.pods.map fun p => if p.starting pod then { p with running := true } else p }

/-- Only a pod whose engine runs can get Ready. -/
def Runtime.probe (rt : Runtime) (ready : Pod → Bool) : Runtime :=
  { rt with pods := rt.pods.map fun p =>
    { p with pod := { p.pod with ready := p.running && ready p.pod } } }

variable (merge : Merge)

def TargetWorld.nodeStep (w : TargetWorld) (name : Str) : NodeEvent → TargetWorld
  | .fetch => w.control name System.fetch
  | .apply env => w.control name fun s => s.apply merge env
  | .look env => w.control name fun s => s.look env
  | .report env => w.control name fun s => s.report env
  | .abandon => w.control name fun s => { s with stage := .idle }
  | .collect => w.setRuntime name { w.runtime name with workload := none }
  | .createPod pod ip => w.setRuntime name ((w.runtime name).createPod pod ip)
  | .removePods keep =>
    let rt := w.runtime name
    w.setRuntime name { rt with pods := rt.pods.filter fun p => keep p.pod }
  | .start pod found =>
    let rt := w.runtime name
    { w.setRuntime name (rt.startPods pod) with
      starts :=
        if currentPhase w.restore = .pending then w.starts
        else w.starts ++ (rt.pods.filter (·.starting pod)).map fun p => ⟨name, p.pod.template, found⟩ }
  | .probe ready => w.setRuntime name ((w.runtime name).probe ready)

/-! ## The whole -/

inductive TargetEvent where
  /-- a pass of the restore; the rest is that of the cluster it may create -/
  | restore (env : RestoreEnv) (crVersion configHash : Str) (lease : LeaseWorld)
  /-- somebody else creates a cluster of that name -/
  | create (cluster : PerconaValkeyCluster) (crVersion configHash : Str) (lease : LeaseWorld)
  | remove
  /-- what is done to the cluster and by its controller; how the nodes report is up to
  their own -/
  | cluster (e : ClusterEvent)
  | node (name : Str) (e : NodeEvent)

/-- The cluster behind a pass of the restore, which does not touch its status. -/
def TargetWorld.restored (w : TargetWorld) (after : Option PerconaValkeyCluster)
    (crVersion configHash : Str) (lease : LeaseWorld) : Option ClusterWorld :=
  match after, w.target with
  | none, _ => none
  | some cluster, some c => some { c with cluster := { cluster with status := c.cluster.status } }
  | some cluster, none => some (createdCluster cluster crVersion configHash lease)

def TargetWorld.step (w : TargetWorld) : TargetEvent → TargetWorld
  | .restore env crVersion configHash lease =>
    let after := (reconcile env).after w.view
    { w with
      restore := after.restore
      target := w.restored after.cluster crVersion configHash lease }
  | .create cluster crVersion configHash lease =>
    match w.target with
    | some _ => w
    | none =>
      let named := { cluster with name := targetClusterName w.restore, ns := w.restore.ns }
      { w with target := some (createdCluster named crVersion configHash lease) }
  | .remove => { w with target := none }
  | .cluster (.report _) => w
  | .cluster (.vanish keep) => { w with nodes := w.nodes.filter keep }
  | .cluster e =>
    match w.target with
    | none => w
    | some c =>
      let c' := (w.controlled c).step e
      { w with target := some c', nodes := c'.nodes }
  | .node name e => w.nodeStep merge name e

end ValkeyOperator.Restore

import ValkeyOperator.Cluster.Announce

/-! Runs of the cluster controller, and whether the nodes end up as prescribed.

A run mixes edits of the cluster, passes of the cluster controller, status
reports and deletions. The node stepping takes a node for up to date when config
hash and image agree, so in a run where the two determine the rest of the
prescribed spec every node is as prescribed once nothing is left to do; any other
edit goes unnoticed. -/

namespace ValkeyOperator.Cluster
open Text Valkey Api

/-! ## Runs -/

structure World where
  cluster : PerconaValkeyCluster
  /-- the roll hash of the configuration rendered for the cluster -/
  configHash : Str
  nodes : List ValkeyNode

inductive Step : World → World → Prop
  | edit (w : World) (cluster : PerconaValkeyCluster) (configHash : Str)
      (hname : cluster.name = w.cluster.name) :
      Step w { w with cluster := cluster, configHash := configHash }
  | pass (w : World) (S : Sorter ValkeyNode) (env : PassEnv) :
      Step w { w with nodes := infraPass S env w.cluster w.nodes w.configHash }
  | report (w : World) (status : ValkeyNode → ValkeyNodeStatus) :
      Step w { w with nodes := w.nodes.map fun n => { n with status := status n } }
  | delete (w : World) (keep : ValkeyNode → Bool) :
      Step w { w with nodes := w.nodes.filter keep }

/-! ## What every node keeps -/

/-- A property of single nodes that every write of a pass establishes or keeps. -/
structure Kept (cluster : PerconaValkeyCluster) (configHash : Str) (P : ValkeyNode → Prop) :
    Prop where
  announcing : ∀ n host port, P n → P (ValkeyNode.announcing n host port)
  created : ∀ key ∈ desiredNodes cluster,
    P { name := keyName cluster.name key
        labels := nodeLabels cluster.name key.shard key.node
        spec := (buildValkeyNodeSpec cluster key configHash).spec }
  stamped : ∀ target n, P target → P n → n.name = target.name →
    P (ValkeyNode.written n (buildValkeyNodeSpec cluster (nodeKeyOf target) configHash).labels
      (buildValkeyNodeSpec cluster (nodeKeyOf target) configHash).spec)

section Kept

variable {cluster : PerconaValkeyCluster} {configHash : Str} {P : ValkeyNode → Prop}

theorem announceNode_kept (hkept : Kept cluster configHash P) {env : AnnounceEnv}
    {n n' : ValkeyNode} (h : announceNode env n = .ok n') (hn : P n) : P n' := by
  unfold announceNode at h
  split at h
  · cases h
  · cases h
    exact hn
  · unfold patchNodeAnnounce at h
    split at h
    · cases h
      exact hn
    · split at h
      · cases h
      · cases h
        exact hkept.announcing n _ _ hn

theorem announceEach_kept (hkept : Kept cluster configHash P) (env : AnnounceEnv)
    {nodes : List ValkeyNode} (h : ∀ n ∈ nodes, P n) : ∀ n ∈ (announceEach env nodes).1, P n := by
  induction nodes with
  | nil => exact h
  | cons n rest ih =>
    unfold announceEach
    obtain ⟨hn, hrest⟩ := List.forall_mem_cons.mp h
    split
    · exact h
    · rename_i n' hn'
      exact List.forall_mem_cons.mpr ⟨announceNode_kept hkept hn' hn, ih hrest⟩

theorem written_kept (hkept : Kept cluster configHash P) {nodes nodes' : List ValkeyNode}
    (hwritten : Written cluster configHash nodes nodes') (h : ∀ n ∈ nodes, P n) :
    ∀ n ∈ nodes', P n := by
  cases hwritten with
  | none => exact h
  | created hkey hmissing =>
    intro n hn
    rcases List.mem_append.mp hn with hn | hn
    · exact h n hn
    · rw [List.mem_singleton.mp hn]
      exact hkept.created _ hkey
  | @stamped target htarget hroll =>
    intro n hn
    obtain ⟨m, hm, rfl⟩ := List.mem_map.mp hn
    by_cases hname : m.name = target.name
    · rw [if_pos hname]
      exact hkept.stamped target m (h target htarget) (h m hm) hname
    · rw [if_neg hname]
      exact h m hm

theorem reconcileExposeAnnounce_kept (hkept : Kept cluster configHash P) (env : AnnounceEnv)
    {nodes : List ValkeyNode} (h : ∀ n ∈ nodes, P n) :
    ∀ n ∈ (reconcileExposeAnnounce env cluster nodes).1, P n := by
  unfold reconcileExposeAnnounce
  split
  · exact announceEach_kept hkept env h
  · exact h

theorem infraPass_kept (hkept : Kept cluster configHash P) (S : Sorter ValkeyNode) (env : PassEnv)
    {nodes : List ValkeyNode} (h : ∀ n ∈ nodes, P n) :
    ∀ n ∈ infraPass S env cluster nodes configHash, P n := by
  have hannounced := reconcileExposeAnnounce_kept hkept env.announce h
  unfold infraPass
  generalize reconcileExposeAnnounce env.announce cluster nodes = r at hannounced ⊢
  obtain ⟨nodes', err⟩ := r
  cases err with
  | some e => exact hannounced
  | none =>
    cases env.infra with
    | some e => exact hannounced
    | none => exact written_kept hkept (reconcileValkeyNodes_written ..) hannounced

end Kept

/-! ## What is prescribed -/

/-- A spec without the external announce address. -/
def bare (spec : ValkeyNodeSpec) : ValkeyNodeSpec :=
  { spec with announceHost := [], announcePort := none }

def Carries (n prescribed : ValkeyNode) : Prop :=
  bare n.spec = bare prescribed.spec ∧
    n.annotations.get annTLSHash = prescribed.annotations.get annTLSHash

instance (n prescribed : ValkeyNode) : Decidable (Carries n prescribed) :=
  inferInstanceAs (Decidable (_ ∧ _))

/-- Every position has its node, and the node carries what the cluster
prescribes for it. -/
def Prescribed (w : World) : Prop :=
  ∀ key ∈ desiredNodes w.cluster, ∃ n, existing w.nodes (keyName w.cluster.name key) = some n ∧
    Carries n (buildValkeyNodeSpec w.cluster key w.configHash)

/-- Config hash and image determine, through `F`, what the cluster prescribes,
and there is no TLS hash. -/
structure Determined (F : Str → Str → NodeKey → ValkeyNodeSpec) (w : World) : Prop where
  spec : ∀ key, bare (buildValkeyNodeSpec w.cluster key w.configHash).spec =
    F w.configHash w.cluster.spec.image key
  tls : w.cluster.annotations.get annTLSHash = []

/-- A node at its place, with the spec that its own hash and image determine. -/
structure Stamped (F : Str → Str → NodeKey → ValkeyNodeSpec) (cluster : Str) (n : ValkeyNode) :
    Prop where
  valid : (nodeKeyOf n).Valid
  name : n.name = keyName cluster (nodeKeyOf n)
  spec : bare n.spec = F n.spec.serverConfigHash n.spec.image (nodeKeyOf n)
  tls : n.annotations.get annTLSHash = []

theorem nodeKeyOf_eq {n : ValkeyNode} {cluster : Str} {key : NodeKey} (hkey : key.Valid)
    (h : n.labels = nodeLabels cluster key.shard key.node) : nodeKeyOf n = key := by
  obtain ⟨hshard, hnode⟩ := nodeLabels_get cluster key.shard key.node
  obtain ⟨hs, hs', hn, hn'⟩ := hkey
  have hshardLabel : n.shardLabel = some key.shard := by
    unfold ValkeyNode.shardLabel
    rw [h, hshard, atoi_itoa hs hs']
    rfl
  have hnodeLabel : n.nodeLabel = some key.node := by
    unfold ValkeyNode.nodeLabel
    rw [h, hnode, atoi_itoa hn hn']
    rfl
  unfold nodeKeyOf shardIndexOf nodeIndexOf
  rw [hshardLabel, hnodeLabel]
  rfl

variable {F : Str → Str → NodeKey → ValkeyNodeSpec}

theorem Determined.stamped {w : World} (hdet : Determined F w) {key : NodeKey} (hkey : key.Valid)
    {n : ValkeyNode} (hname : n.name = keyName w.cluster.name key)
    (hlabels : n.labels = nodeLabels w.cluster.name key.shard key.node)
    (hspec : n.spec = (buildValkeyNodeSpec w.cluster key w.configHash).spec)
    (htls : n.annotations.get annTLSHash = []) : Stamped F w.cluster.name n := by
  have hkeyOf := nodeKeyOf_eq hkey hlabels
  refine ⟨hkeyOf.symm ▸ hkey, hkeyOf.symm ▸ hname, ?_, htls⟩
  rw [hspec, hkeyOf, hdet.spec key]
  rfl

theorem Determined.kept {w : World} (hdet : Determined F w) :
    Kept w.cluster w.configHash (Stamped F w.cluster.name) where
  announcing _ _ _ hn := ⟨hn.valid, hn.name, hn.spec, hn.tls⟩
  created _ hkey := hdet.stamped (desiredNodes_valid hkey) rfl rfl rfl rfl
  stamped _ _ htarget hn hname :=
    hdet.stamped htarget.valid (hname.trans htarget.name) rfl rfl hn.tls

theorem Step.stamped {a b : World} (hstep : Step a b) (hdet : Determined F a)
    (h : ∀ n ∈ a.nodes, Stamped F a.cluster.name n) :
    ∀ n ∈ b.nodes, Stamped F b.cluster.name n := by
  cases hstep with
  | edit cluster configHash hname =>
    rw [hname]
    exact h
  | pass S env => exact infraPass_kept hdet.kept S env h
  | report status =>
    intro n hn
    obtain ⟨m, hm, rfl⟩ := List.mem_map.mp hn
    obtain ⟨hvalid, hname, hspec, htls⟩ := h m hm
    exact ⟨hvalid, hname, hspec, htls⟩
  | delete keep => exact fun n hn => h n (List.mem_filter.mp hn).1

/-- A step between two states in which hash and image determine the rest. -/
def DeterminedStep (F : Str → Str → NodeKey → ValkeyNodeSpec) (a b : World) : Prop :=
  Step a b ∧ Determined F a ∧ Determined F b

theorem run_stamped {a b : World} (hrun : Relation.ReflTransGen (DeterminedStep F) a b)
    (h : a.nodes = []) : ∀ n ∈ b.nodes, Stamped F b.cluster.name n := by
  induction hrun with
  | refl =>
    rw [h]
    exact fun n hn => nomatch hn
  | tail _ hstep ih => exact hstep.1.stamped hstep.2.1 ih

/-- A converged node that is stamped carries what the cluster prescribes. -/
theorem Stamped.carries {w : World} (hdet : Determined F w) {n : ValkeyNode} {key : NodeKey}
    (hkey : key.Valid) (h : Stamped F w.cluster.name n) (hname : n.name = keyName w.cluster.name key)
    (hconv : nodeConverged n w.cluster w.configHash = true) :
    Carries n (buildValkeyNodeSpec w.cluster key w.configHash) := by
  have hkeyOf : nodeKeyOf n = key := keyName_injective hkey (h.name.symm.trans hname)
  obtain ⟨hhash, himage, -⟩ := of_decide_eq_true hconv
  constructor
  · rw [h.spec, hdet.spec key, hhash, himage, hkeyOf]
  · rw [h.tls]
    change [] = (stampTLSHash ∅ (w.cluster.annotations.get annTLSHash)).get annTLSHash
    rw [hdet.tls]
    rfl

/-- In a run that starts without nodes and throughout which config hash and image
determine the prescribed spec and no TLS hash is set, the node stepping reports
that nothing is left only when every node is as prescribed. -/
theorem reconcileValkeyNodes_done_prescribed (F : Str → Str → NodeKey → ValkeyNodeSpec)
    (start w : World) (hstart : start.nodes = []) (hdet : Determined F w)
    (hrun : Relation.ReflTransGen (DeterminedStep F) start w) (S : Sorter ValkeyNode)
    (env : StepEnv)
    (hdone : (reconcileValkeyNodes S env w.cluster w.nodes w.configHash).outcome w.nodes =
      .ok false) : Prescribed w := by
  intro key hkey
  obtain ⟨n, hn, hconv⟩ := reconcileValkeyNodes_done hdone key hkey
  obtain ⟨hmem, hname⟩ := mem_of_existing hn
  exact ⟨n, hn, (run_stamped hrun hstart n hmem).carries hdet (desiredNodes_valid hkey) hname hconv⟩

/-- One primary, not yet created. With TLS the cluster carries the hash of its certificate. -/
def soloWorld (tlsHash : Option Str) : World where
  cluster :=
    { name := "prod"
      annotations := tlsHash.elim ∅ fun hash => AList.singleton annTLSHash hash
      spec := { shards := 1, image := "valkey:8"
                tls := tlsHash.map fun _ => { secretName := "prod-tls" } } }
  configHash := "h1"
  nodes := []

/-- No per-pod Service, and every write succeeds. -/
def quietPass : PassEnv where
  announce := { service := fun _ => .ok none, hostIPs := fun _ => .ok [] }

/-- The node once it is created, without the annotations, and has reported. -/
def soloNode (tlsHash : Option Str) : ValkeyNode :=
  { buildValkeyNodeSpec (soloWorld tlsHash).cluster ⟨0, 0⟩ (soloWorld tlsHash).configHash with
    annotations := ∅
    status := { observedGeneration := 1, ready := true } }

def soloSettled (tlsHash : Option Str) : World :=
  { soloWorld tlsHash with nodes := [soloNode tlsHash] }

theorem soloWorld_run {P : World → Prop} {tlsHash : Option Str}
    (hcreated : infraPass .insertion quietPass (soloWorld tlsHash).cluster []
      (soloWorld tlsHash).configHash = [{ soloNode tlsHash with status := {} }])
    (hnodes : ∀ nodes, P { soloWorld tlsHash with nodes := nodes }) :
    Relation.ReflTransGen (fun a b => Step a b ∧ P a ∧ P b) (soloWorld tlsHash)
      (soloSettled tlsHash) := by
  have hpass := Step.pass (soloWorld tlsHash) .insertion quietPass
  rw [show (soloWorld tlsHash).nodes = [] from rfl, hcreated] at hpass
  have hreport := Step.report { soloWorld tlsHash with
    nodes := [{ soloNode tlsHash with status := {} }] }
    fun _ => { observedGeneration := 1, ready := true }
  exact .tail (.single ⟨hpass, hnodes [], hnodes _⟩) ⟨hreport, hnodes _, hnodes _⟩

theorem reconcileValkeyNodes_done_solo : Prescribed (soloSettled none) := by
  have hdet : ∀ nodes, Determined (fun _ _ key =>
      bare (buildValkeyNodeSpec (soloWorld none).cluster key (soloWorld none).configHash).spec)
      { soloWorld none with nodes := nodes } := fun nodes => ⟨fun _ => rfl, rfl⟩
  exact reconcileValkeyNodes_done_prescribed _ (soloWorld none) (soloSettled none) rfl (hdet _)
    (soloWorld_run rfl hdet) .insertion {} (by decide)

def soloTLS : World := soloSettled (some "t1")

/-- The certificate was rotated and `maxmemory`, which can be set live, was
edited; neither is part of the config hash. -/
def soloRotated : World :=
  { soloTLS with
    cluster := { soloTLS.cluster with
      annotations := soloTLS.cluster.annotations.insert annTLSHash "t2"
      spec := { soloTLS.cluster.spec with
        config := AList.singleton "maxmemory" "2gb" } } }

/-- Both edits go unnoticed: nothing is left to do, and the node is not as
prescribed. -/
theorem reconcileValkeyNodes_misses_rotation :
    Relation.ReflTransGen Step (soloWorld (some "t1")) soloRotated ∧
      (reconcileValkeyNodes .insertion {} soloRotated.cluster soloRotated.nodes
        soloRotated.configHash).outcome soloRotated.nodes = .ok false ∧
      ¬ Prescribed soloRotated := by
  refine ⟨?_, by decide, fun h => ?_⟩
  · have hrun : Relation.ReflTransGen Step (soloWorld (some "t1")) soloTLS :=
      (soloWorld_run (P := fun _ => True) rfl fun _ => trivial).lift id fun _ _ h => h.1
    exact hrun.tail (.edit soloTLS soloRotated.cluster soloRotated.configHash rfl)
  · obtain ⟨n, hn, -, htls⟩ := h ⟨0, 0⟩ (by decide)
    have hsolo : existing soloRotated.nodes (keyName soloRotated.cluster.name ⟨0, 0⟩) =
        some (soloNode (some "t1")) := by decide
    rw [hsolo, Option.some.injEq] at hn
    exact absurd (hn ▸ htls) (by decide)

end ValkeyOperator.Cluster

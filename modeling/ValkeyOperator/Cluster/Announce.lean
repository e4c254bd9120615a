import ValkeyOperator.Cluster.Nodes
import ValkeyOperator.Node.Resources

/-! The external announce address and what one pass restarts
(`perconavalkeycluster/expose_announce.go` and the order of `reconcileInfra` in
`controller.go`).

A pass first patches the newly resolved external address onto every node, and
then makes the one write of the node stepping. The address is part of the
server's command line, so each patch changes a pod template. -/

namespace ValkeyOperator.Cluster
open Text Valkey Api

variable {env : AnnounceEnv} {nodes : List ValkeyNode} {cluster : PerconaValkeyCluster}
  {configHash : Str} {a : ValkeyNode}

/-! ## Resolving the address -/

structure ServicePort where
  name : Str
  port : Int
  nodePort : Int := 0

structure Service where
  type : ServiceType
  ports : List ServicePort
  /-- IP and hostname of each load balancer ingress -/
  ingress : List (Str × Str) := []

def valkeyPortName : Str := "valkey"

def servicePublishedClientPort (svc : Service) : Int :=
  match svc.ports.find? fun p => p.name == valkeyPortName with
  | some p => p.port
  | none => clientPort

def serviceClientNodePort (svc : Service) : Option Int :=
  match svc.ports.find? fun p => p.name == valkeyPortName with
  | some p => if p.nodePort = 0 then none else some p.nodePort
  | none => none

/-- The first ingress with an address, its IP before its hostname. -/
def loadBalancerAnnounce (svc : Service) : Option (Str × Int) :=
  match (svc.ingress.map fun i => if i.1 ≠ [] then i.1 else i.2).find? (· ≠ []) with
  | some host => some (host, servicePublishedClientPort svc)
  | none => none

/-- What the API server answers in the announce phase. -/
structure AnnounceEnv where
  /-- the per-pod Service of a name, if there is one -/
  service : Str → Except Err (Option Service)
  /-- the host addresses of the pods at a position, empty where not scheduled -/
  hostIPs : NodeKey → Except Err (List Str)
  /-- the error of a node's patch, if it fails -/
  patch : Str → Option Err := fun _ => none

def nodePortAnnounce (env : AnnounceEnv) (node : ValkeyNode) (svc : Service) :
    Except Err (Option (Str × Int)) :=
  match serviceClientNodePort svc with
  | none => .ok none
  | some nodePort =>
    match env.hostIPs (nodeKeyOf node) with
    | .error e => .error (Err.wrap ("list backing pod for " ++ node.name) e)
    | .ok ips => .ok ((ips.find? (· ≠ [])).map fun ip => (ip, nodePort))

/-- The external address of a node; nothing while it is pending. -/
def resolveExternalAnnounce (env : AnnounceEnv) (node : ValkeyNode) :
    Except Err (Option (Str × Int)) :=
  match env.service (perPodServiceName node.name) with
  | .error e => .error (Err.wrap ("get per-pod service " ++ perPodServiceName node.name) e)
  | .ok none => .ok none
  | .ok (some svc) =>
    match svc.type with
    | .loadBalancer => .ok (loadBalancerAnnounce svc)
    | .nodePort => nodePortAnnounce env node svc
    | .clusterIP => .ok none

/-! ## Patching the nodes -/

def ValkeyNode.announcing (n : ValkeyNode) (host : Str) (port : Int) : ValkeyNode :=
  ValkeyNode.written n n.labels { n.spec with announceHost := host, announcePort := some port }

/-- Patch the address onto one node unless it carries it already. -/
def patchNodeAnnounce (env : AnnounceEnv) (node : ValkeyNode) (host : Str) (port : Int) :
    Except Err ValkeyNode :=
  if node.spec.announceHost = host ∧ node.spec.announcePort = some port then .ok node
  else
    match env.patch node.name with
    | some e => .error (Err.wrap ("patch announce on " ++ node.name) e)
    | none => .ok (ValkeyNode.announcing node host port)

/-- The node after its turn in the announce loop. -/
def announceNode (env : AnnounceEnv) (node : ValkeyNode) : Except Err ValkeyNode :=
  match resolveExternalAnnounce env node with
  | .error e => .error e
  | .ok none => .ok node
  | .ok (some (host, port)) => patchNodeAnnounce env node host port

/-- The loop over the nodes: it stops at the first error, and what was patched
before stays. -/
def announceEach (env : AnnounceEnv) : List ValkeyNode → List ValkeyNode × Option Err
  | [] => ([], none)
  | n :: rest =>
    match announceNode env n with
    | .error e => (n :: rest, some e)
    | .ok n' => ((n' :: (announceEach env rest).1), (announceEach env rest).2)

def reconcileExposeAnnounce (env : AnnounceEnv) (cluster : PerconaValkeyCluster)
    (nodes : List ValkeyNode) : List ValkeyNode × Option Err :=
  if announceWanted cluster then announceEach env nodes else (nodes, none)

/-! ## One pass -/

/-- What a whole infrastructure pass meets: `infra` is the error of a phase
between the announce phase and the node stepping. -/
structure PassEnv where
  announce : AnnounceEnv
  infra : Option Err := none
  step : StepEnv := {}

/-- The nodes after the announce phase and the node stepping of one pass. -/
def infraPass (S : Sorter ValkeyNode) (env : PassEnv) (cluster : PerconaValkeyCluster)
    (nodes : List ValkeyNode) (configHash : Str) : List ValkeyNode :=
  match reconcileExposeAnnounce env.announce cluster nodes with
  | (nodes', some _) => nodes'
  | (nodes', none) =>
    match env.infra with
    | some _ => nodes'
    | none => (reconcileValkeyNodes S env.step cluster nodes' configHash).after nodes'

/-- The node a pass stamps for a roll, if it gets that far. -/
def passTarget (S : Sorter ValkeyNode) (env : PassEnv) (cluster : PerconaValkeyCluster)
    (nodes : List ValkeyNode) (configHash : Str) : Option ValkeyNode :=
  match reconcileExposeAnnounce env.announce cluster nodes with
  | (_, some _) => none
  | (nodes', none) =>
    match env.infra with
    | some _ => none
    | none => stepTarget S env.step cluster nodes' configHash

/-! ## Names -/

/-- The nodes of a namespace: their names are distinct. -/
structure NodeList where
  items : List ValkeyNode
  names_nodup : (items.map (·.name)).Nodup

theorem announceNode_eq {n n' : ValkeyNode} (h : announceNode env n = .ok n') :
    n' = n ∨ ∃ host port, n' = ValkeyNode.announcing n host port := by
  unfold announceNode at h
  split at h
  · cases h
  · cases h
    exact .inl rfl
  · unfold patchNodeAnnounce at h
    split at h
    · cases h
      exact .inl rfl
    · split at h
      · cases h
      · cases h
        exact .inr ⟨_, _, rfl⟩

theorem announceNode_sameRoll {n n' : ValkeyNode} (h : announceNode env n = .ok n') :
    SameRoll n' n := by
  rcases announceNode_eq h with rfl | ⟨host, port, rfl⟩
  · exact .refl n'
  · exact ⟨rfl, rfl, rfl, rfl, rfl⟩

theorem announceEach_names (env : AnnounceEnv) (nodes : List ValkeyNode) :
    (announceEach env nodes).1.map (·.name) = nodes.map (·.name) := by
  induction nodes with
  | nil => rfl
  | cons n rest ih =>
    unfold announceEach
    split
    · rfl
    · rename_i n' hn'
      rw [List.map_cons, List.map_cons, ih, (announceNode_sameRoll hn').name]

theorem reconcileExposeAnnounce_names (env : AnnounceEnv) (cluster : PerconaValkeyCluster)
    (nodes : List ValkeyNode) :
    (reconcileExposeAnnounce env cluster nodes).1.map (·.name) = nodes.map (·.name) := by
  unfold reconcileExposeAnnounce
  split
  · exact announceEach_names env nodes
  · rfl

/-! ## Whom the loop reaches -/

/-- Every node before `a` in the list has its turn without an error. -/
def Reached (env : AnnounceEnv) (nodes : List ValkeyNode) (a : ValkeyNode) : Prop :=
  ∃ pre post, nodes = pre ++ a :: post ∧ ∀ n ∈ pre, ∃ n', announceNode env n = .ok n'

theorem announceEach_mem (env : AnnounceEnv) (hnodup : (nodes.map (·.name)).Nodup)
    (ha : a ∈ nodes) :
    (∃ b ∈ (announceEach env nodes).1, Reached env nodes a ∧ announceNode env a = .ok b) ∨
    (a ∈ (announceEach env nodes).1 ∧ ¬ ∃ b, Reached env nodes a ∧ announceNode env a = .ok b) := by
  induction nodes with
  | nil => cases ha
  | cons n rest ih =>
    obtain ⟨hfresh, hrest⟩ := List.nodup_cons.mp hnodup
    unfold announceEach
    cases hn : announceNode env n with
    | error e =>
      refine .inr ⟨ha, ?_⟩
      intro h
      obtain ⟨b, ⟨pre, post, hsplit, hpre⟩, hb⟩ := h
      cases pre with
      | nil =>
        obtain ⟨rfl, rfl⟩ := List.cons.inj hsplit
        rw [hn] at hb
        cases hb
      | cons m pre =>
        obtain ⟨rfl, rfl⟩ := List.cons.inj hsplit
        obtain ⟨n', hn'⟩ := hpre n (by simp)
        rw [hn] at hn'
        cases hn'
    | ok n' =>
      rcases List.mem_cons.mp ha with rfl | ha
      · exact .inl ⟨n', by simp, ⟨[], rest, rfl, fun m hm => nomatch hm⟩, hn⟩
      · have hreached : Reached env (n :: rest) a ↔ Reached env rest a := by
          constructor
          · intro h
            obtain ⟨pre, post, hsplit, hpre⟩ := h
            cases pre with
            | nil =>
              obtain ⟨rfl, rfl⟩ := List.cons.inj hsplit
              exact absurd (List.mem_map_of_mem ha) hfresh
            | cons m pre =>
              obtain ⟨rfl, rfl⟩ := List.cons.inj hsplit
              exact ⟨pre, post, rfl, fun m hm => hpre m (by simp [hm])⟩
          · intro h
            obtain ⟨pre, post, rfl, hpre⟩ := h
            exact ⟨n :: pre, post, rfl, List.forall_mem_cons.mpr ⟨⟨n', hn⟩, hpre⟩⟩
        rw [hreached]
        rcases ih hrest ha with ⟨b, hb, hr⟩ | ⟨hmem, hr⟩
        · exact .inl ⟨b, List.mem_cons_of_mem _ hb, hr⟩
        · exact .inr ⟨List.mem_cons_of_mem _ hmem, hr⟩

theorem reconcileExposeAnnounce_existing (env : AnnounceEnv) (cluster : PerconaValkeyCluster)
    (hnodup : (nodes.map (·.name)).Nodup) {b : ValkeyNode} (ha : a ∈ nodes)
    (hb : existing (reconcileExposeAnnounce env cluster nodes).1 a.name = some b) :
    (announceWanted cluster = true ∧ Reached env nodes a ∧ announceNode env a = .ok b) ∨
    (b = a ∧ ¬ ∃ b, announceWanted cluster = true ∧ Reached env nodes a ∧
      announceNode env a = .ok b) := by
  have hnames := reconcileExposeAnnounce_names env cluster nodes
  unfold reconcileExposeAnnounce at hb hnames
  split at hb
  · rename_i hwanted
    rw [if_pos hwanted] at hnames
    have hnodup' : ((announceEach env nodes).1.map (·.name)).Nodup := hnames ▸ hnodup
    rcases announceEach_mem env hnodup ha with ⟨c, hc, hreached, hok⟩ | ⟨hmem, hnot⟩
    · have := existing_of_mem hnodup' hc
      rw [(announceNode_sameRoll hok).name, hb, Option.some.injEq] at this
      exact .inl ⟨hwanted, hreached, this ▸ hok⟩
    · rw [existing_of_mem hnodup' hmem, Option.some.injEq] at hb
      exact .inr ⟨hb.symm, fun ⟨c, _, hc⟩ => hnot ⟨c, hc⟩⟩
  · rename_i hwanted
    rw [existing_of_mem hnodup ha, Option.some.injEq] at hb
    exact .inr ⟨hb.symm, fun ⟨_, hw, _⟩ => hwanted hw⟩

/-! ## The node a pass stamps, seen before the pass -/

/-- The node after its turn in the announce phase, left as it was by an error. -/
def turned (env : AnnounceEnv) (cluster : PerconaValkeyCluster) (n : ValkeyNode) : ValkeyNode :=
  if announceWanted cluster then
    match announceNode env n with
    | .ok n' => n'
    | .error _ => n
  else n

theorem turned_sameRoll (env : AnnounceEnv) (cluster : PerconaValkeyCluster) (n : ValkeyNode) :
    SameRoll (turned env cluster n) n := by
  unfold turned
  split
  · split
    · exact announceNode_sameRoll ‹_›
    · exact .refl n
  · exact .refl n

/-- Every node's turn succeeds. -/
def AllTurned (env : AnnounceEnv) (cluster : PerconaValkeyCluster) (nodes : List ValkeyNode) :
    Prop :=
  announceWanted cluster = true → ∀ n ∈ nodes, ∃ n', announceNode env n = .ok n'

theorem announceEach_none :
    (announceEach env nodes).2 = none ↔ ∀ n ∈ nodes, ∃ n', announceNode env n = .ok n' := by
  induction nodes with
  | nil => simp [announceEach]
  | cons n rest ih =>
    rw [List.forall_mem_cons]
    unfold announceEach
    cases announceNode env n with
    | error e => simp
    | ok n' => simpa using ih

theorem announceEach_ok (hwanted : announceWanted cluster = true)
    (h : ∀ n ∈ nodes, ∃ n', announceNode env n = .ok n') :
    (announceEach env nodes).1 = nodes.map (turned env cluster) := by
  induction nodes with
  | nil => rfl
  | cons n rest ih =>
    obtain ⟨⟨n', hn⟩, hrest⟩ := List.forall_mem_cons.mp h
    have hturned : turned env cluster n = n' := by
      unfold turned
      rw [if_pos hwanted, hn]
    unfold announceEach
    rw [hn, List.map_cons, hturned]
    dsimp only
    rw [ih hrest]

theorem reconcileExposeAnnounce_none :
    (reconcileExposeAnnounce env cluster nodes).2 = none ↔ AllTurned env cluster nodes := by
  unfold reconcileExposeAnnounce AllTurned
  split
  · simp [announceEach_none, *]
  · simp [*]

theorem reconcileExposeAnnounce_ok (h : AllTurned env cluster nodes) :
    (reconcileExposeAnnounce env cluster nodes).1 = nodes.map (turned env cluster) := by
  unfold reconcileExposeAnnounce
  split
  · rename_i hwanted
    exact announceEach_ok hwanted (h hwanted)
  · rename_i hwanted
    have hid : turned env cluster = id := by
      funext n
      unfold turned
      rw [if_neg hwanted]
      rfl
    rw [hid, List.map_id]

/-- The pass comes to stamp `t`: no phase fails, `t` is due for its roll, and the
nodes that need none have settled also at the generation their turn gives them. -/
structure Rolls (S : Sorter ValkeyNode) (env : PassEnv) (cluster : PerconaValkeyCluster)
    (nodes : List ValkeyNode) (configHash : Str) (t : ValkeyNode) : Prop where
  turns : AllTurned env.announce cluster nodes
  infra : env.infra = none
  due : Due S env.step cluster nodes configHash t
  settled : ∀ n ∈ nodes, nodeNeedsRoll n cluster configHash = false →
    nodeConverged (turned env.announce cluster n) cluster configHash = true

theorem settled_turned :
    Settled cluster (nodes.map (turned env cluster)) configHash ↔
      ∀ n ∈ nodes, nodeNeedsRoll n cluster configHash = false →
        nodeConverged (turned env cluster n) cluster configHash = true := by
  unfold Settled
  rw [List.forall_mem_map]
  simp only [nodeNeedsRoll_same (turned_sameRoll env cluster)]

theorem passTarget_eq_some {S : Sorter ValkeyNode} {env : PassEnv}
    (hnodup : (nodes.map (·.name)).Nodup) {t' : ValkeyNode} :
    passTarget S env cluster nodes configHash = some t' ↔
      ∃ t, turned env.announce cluster t = t' ∧ Rolls S env cluster nodes configHash t := by
  have hphase : (reconcileExposeAnnounce env.announce cluster nodes).2 = none ↔
      AllTurned env.announce cluster nodes := reconcileExposeAnnounce_none
  have hok : AllTurned env.announce cluster nodes →
      (reconcileExposeAnnounce env.announce cluster nodes).1 =
        nodes.map (turned env.announce cluster) := reconcileExposeAnnounce_ok
  unfold passTarget
  generalize reconcileExposeAnnounce env.announce cluster nodes = r at hphase hok
  obtain ⟨nodes', err⟩ := r
  cases err with
  | some e =>
    have hnot : ¬ AllTurned env.announce cluster nodes := fun h => nomatch hphase.mpr h
    constructor
    · intro h
      cases h
    · intro h
      obtain ⟨t, -, hrolls⟩ := h
      exact absurd hrolls.turns hnot
  | none =>
    have hturns := hphase.mp rfl
    have hnodes : nodes' = nodes.map (turned env.announce cluster) := hok hturns
    subst hnodes
    cases hinfra : env.infra with
    | some e =>
      constructor
      · intro h
        cases h
      · intro h
        obtain ⟨t, -, hrolls⟩ := h
        rw [hrolls.infra] at hinfra
        cases hinfra
    | none =>
      dsimp only
      rw [stepTarget_eq_some, due_map (turned_sameRoll env.announce cluster) hnodup, settled_turned]
      constructor
      · intro h
        obtain ⟨⟨t, rfl, hdue⟩, hsettled⟩ := h
        exact ⟨t, rfl, hturns, hinfra, hdue, hsettled⟩
      · intro h
        obtain ⟨t, rfl, hrolls⟩ := h
        exact ⟨⟨t, rfl, hrolls.due⟩, hrolls.settled⟩

theorem Rolls.unique {S : Sorter ValkeyNode} {env : PassEnv} {t u : ValkeyNode}
    (ht : Rolls S env cluster nodes configHash t) (hu : Rolls S env cluster nodes configHash u) :
    t = u := by
  have hnext := ht.due.next
  rw [hu.due.next, Option.some.injEq] at hnext
  exact hnext.symm

theorem render_stampedNode_turned (merge : Node.Merge)
    (env : AnnounceEnv) (cluster : PerconaValkeyCluster) (n : ValkeyNode) (configHash : Str) :
    Node.render merge (stampedNode cluster (turned env cluster n) configHash) =
      Node.render merge (stampedNode cluster n configHash) := by
  unfold turned
  split
  · split
    · rename_i n' hn
      rcases announceNode_eq hn with rfl | ⟨host, port, rfl⟩ <;> rfl
    · rfl
  · rfl

/-! ## What a pass restarts -/

section Restarts

variable (merge : Node.Merge) (S : Sorter ValkeyNode)
  (env : PassEnv) (cluster : PerconaValkeyCluster) (nodes : NodeList) (configHash : Str)

/-- After the pass another template is rendered for the node. -/
def Restarted (a : ValkeyNode) : Prop :=
  ∃ b, existing (infraPass S env cluster nodes.items configHash) a.name = some b ∧
    Node.render merge b ≠ Node.render merge a

/-- The node is rolled, and what is stamped on it renders differently. -/
def Restamped (a : ValkeyNode) : Prop :=
  Rolls S env cluster nodes.items configHash a ∧
    Node.render merge (stampedNode cluster a configHash) ≠ Node.render merge a

/-- The node is not rolled, but the announce loop reaches it and gives it an
external address that renders differently. -/
def Readdressed (a : ValkeyNode) : Prop :=
  ¬ Rolls S env cluster nodes.items configHash a ∧
  ∃ b, announceWanted cluster = true ∧ Reached env.announce nodes.items a ∧
    announceNode env.announce a = .ok b ∧ Node.render merge b ≠ Node.render merge a

theorem infraPass_existing (ha : a ∈ nodes.items) :
    ∃ b, existing (reconcileExposeAnnounce env.announce cluster nodes.items).1 a.name = some b ∧
      existing (infraPass S env cluster nodes.items configHash) a.name =
        match passTarget S env cluster nodes.items configHash with
        | some t => if t.name = a.name then some (stampedNode cluster t configHash) else some b
        | none => some b := by
  have hnames := reconcileExposeAnnounce_names env.announce cluster nodes.items
  unfold infraPass passTarget
  generalize reconcileExposeAnnounce env.announce cluster nodes.items = r at hnames ⊢
  obtain ⟨nodes', err⟩ := r
  have hnodup : (nodes'.map (·.name)).Nodup := hnames ▸ nodes.names_nodup
  obtain ⟨b, hb, hname⟩ : ∃ b ∈ nodes', b.name = a.name :=
    List.mem_map.mp (hnames ▸ List.mem_map_of_mem ha)
  have hexisting : existing nodes' a.name = some b := hname ▸ existing_of_mem hnodup hb
  refine ⟨b, hexisting, ?_⟩
  cases err with
  | some e => exact hexisting
  | none =>
    cases env.infra with
    | some e => exact hexisting
    | none => exact reconcileValkeyNodes_existing S env.step cluster configHash hnodup hexisting

/-- A restart comes from the roll stamp or from a new address. -/
theorem restarted_iff (ha : a ∈ nodes.items) :
    Restarted merge S env cluster nodes configHash a ↔
      Restamped merge S env cluster nodes configHash a ∨
      Readdressed merge S env cluster nodes configHash a := by
  obtain ⟨b, hb, hafter⟩ := infraPass_existing S env cluster nodes configHash ha
  have hannounce : Node.render merge b ≠ Node.render merge a ↔
      ∃ c, announceWanted cluster = true ∧ Reached env.announce nodes.items a ∧
        announceNode env.announce a = .ok c ∧ Node.render merge c ≠ Node.render merge a := by
    rcases reconcileExposeAnnounce_existing env.announce cluster nodes.names_nodup ha hb with
      ⟨hw, hr, hok⟩ | ⟨rfl, hnot⟩
    · simp [hw, hr, hok]
    · exact ⟨fun hne => absurd rfl hne, fun ⟨c, hw, hr, hok, _⟩ => absurd ⟨c, hw, hr, hok⟩ hnot⟩
  unfold Restarted Restamped Readdressed
  rw [← hannounce]
  by_cases hrolls : Rolls S env cluster nodes.items configHash a
  · have htarget := (passTarget_eq_some nodes.names_nodup).mpr ⟨a, rfl, hrolls⟩
    rw [htarget] at hafter
    dsimp only at hafter
    rw [if_pos (turned_sameRoll env.announce cluster a).name] at hafter
    simp [hafter, hrolls, render_stampedNode_turned]
  · have hkept : existing (infraPass S env cluster nodes.items configHash) a.name = some b := by
      cases htarget : passTarget S env cluster nodes.items configHash with
      | none =>
        rw [htarget] at hafter
        exact hafter
      | some t' =>
        obtain ⟨t, rfl, ht⟩ := (passTarget_eq_some nodes.names_nodup).mp htarget
        have hne : (turned env.announce cluster t).name ≠ a.name := by
          intro hname
          rw [(turned_sameRoll env.announce cluster t).name] at hname
          have hmem := (mem_of_nextRollCandidate ht.due.next).1
          have hsame : t = a := List.inj_on_of_nodup_map nodes.names_nodup hmem ha hname
          exact hrolls (hsame ▸ ht)
        rw [htarget] at hafter
        dsimp only at hafter
        rwa [if_neg hne] at hafter
    simp [hkept, hrolls]

end Restarts

/-- A settled cluster of two one-node shards, exposed per pod. -/
def exposedCluster : PerconaValkeyCluster :=
  { name := "prod"
    spec := { shards := 2, image := "valkey:8"
              expose := some { type := .loadBalancer, perPod := true } } }

def exposedNode (shard : Int) : ValkeyNode :=
  { buildValkeyNodeSpec exposedCluster ⟨shard, 0⟩ "h1" with
    status := { observedGeneration := 1, ready := true } }

def exposedNodes : NodeList := ⟨[exposedNode 0, exposedNode 1], by decide⟩

/-- Both load balancers have just been given their addresses. -/
def addressesAssigned : PassEnv where
  announce :=
    { service := fun name =>
        let ip := if name = perPodServiceName (exposedNode 0).name then "203.0.113.1"
          else "203.0.113.2"
        .ok (some { type := .loadBalancer, ports := [⟨valkeyPortName, 6379, 0⟩]
                    ingress := [(ip.toList, [])] })
      hostIPs := fun _ => .ok [] }

end ValkeyOperator.Cluster

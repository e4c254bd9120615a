import ValkeyOperator.Cluster.NodeSpec
import ValkeyOperator.Lib.Perimeter
import ValkeyOperator.Node.Resources

/-! The network policy of a cluster (`perconavalkeycluster/networkpolicy.go`).

One policy lists both directions, so that every flow of the cluster's pods needs a rule. The
ingress rules are there for clients, the operator, the other pods of the cluster and
Prometheus; the egress rules are there for object storage and name resolution. -/

namespace ValkeyOperator.Cluster
open Text Valkey Api
open ValkeyOperator.Node Perimeter

/-! ## The spec -/

structure NetworkPolicySpec where
  enabled : Option Bool := none
  clientNamespaceSelectors : List (LabelSelector Str) := []
  clientPodSelectors : List (LabelSelector Str) := []
  monitoringNamespace : Str := []
deriving DecidableEq

/-- A cluster with `spec.networkPolicy`. -/
structure FencedCluster extends PerconaValkeyCluster where
  networkPolicy : Option NetworkPolicySpec := none
deriving DecidableEq

def annNetworkPolicyEnabled : Str := "valkey.percona.com/network-policy"

def annNetworkPolicyMonitoringNamespace : Str :=
  "valkey.percona.com/network-policy-monitoring-namespace"

def labelAppName : Str := "app.kubernetes.io/name"

def labelComponent : Str := "valkey.percona.com/component"

def metadataNameLabel : Str := "kubernetes.io/metadata.name"

def metricsPort : Int := 9121

def networkPolicyName (cluster : Str) : Str := "valkey-" ++ cluster ++ "-netpol"

def networkPolicyEnabled (cluster : FencedCluster) : Bool :=
  match cluster.networkPolicy.bind (·.enabled) with
  | some enabled => enabled
  | none => cluster.annotations.get annNetworkPolicyEnabled = "true"

def monitoringNamespace (cluster : FencedCluster) : Str :=
  let wanted := (cluster.networkPolicy.map (·.monitoringNamespace)).getD []
  let marked := cluster.annotations.get annNetworkPolicyMonitoringNamespace
  if wanted ≠ [] then wanted else if marked ≠ [] then marked else cluster.ns

/-! ## The rules -/

def clusterSelector (cluster : Str) : List (Str × Str) := [(labelCluster, cluster)]

def clusterValkeyPodSelector (cluster : Str) : List (Str × Str) :=
  [(labelCluster, cluster), (labelComponent, componentValkey)]

def operatorPodSelector : List (Str × Str) := [(labelAppName, "valkey-operator")]

/-- Pods of the policy's namespace with the given labels. -/
def podPeer (podLabels : List (Str × Str)) : Peer Str :=
  { podSelector := some { matchLabels := podLabels } }

def prometheusPeer (monitoringNS : Str) : Peer Str where
  namespaceSelector := some { matchLabels := [(metadataNameLabel, monitoringNS)] }
  podSelector := some { matchLabels := [(labelAppName, "prometheus")] }

def tcpPorts (p : Int) : List PolicyPort := [⟨.tcp, p⟩]

/-- A peer for each selector, and for each pair of selectors where there are both kinds. -/
def clientIngressPeers (cluster : FencedCluster) : List (Peer Str) :=
  let nsSelectors := (cluster.networkPolicy.map (·.clientNamespaceSelectors)).getD []
  let podSelectors := (cluster.networkPolicy.map (·.clientPodSelectors)).getD []
  if nsSelectors = [] ∧ podSelectors = [] then [podPeer []]
  else if nsSelectors = [] then podSelectors.map fun pods => { podSelector := some pods }
  else if podSelectors = [] then nsSelectors.map fun spaces => { namespaceSelector := some spaces }
  else nsSelectors.flatMap fun spaces => podSelectors.map fun pods =>
    { namespaceSelector := some spaces, podSelector := some pods }

def metricsIngress (cluster : FencedCluster) : Rule Str :=
  { peers := [prometheusPeer (monitoringNamespace cluster)], ports := tcpPorts metricsPort }

def buildIngressRules (cluster : FencedCluster) : List (Rule Str) :=
  let sameCluster := [podPeer (clusterSelector cluster.name)]
  [ { peers := clientIngressPeers cluster, ports := tcpPorts portClient },
    { peers := [podPeer operatorPodSelector], ports := tcpPorts portClient },
    { peers := sameCluster, ports := tcpPorts portBus },
    { peers := sameCluster, ports := tcpPorts portClient },
    metricsIngress cluster ]

def buildEgressRules : List (Rule Str) :=
  [{ ports := tcpPorts 443 }, { ports := [⟨.udp, 53⟩, ⟨.tcp, 53⟩] }]

def buildNetworkPolicySpec (cluster : FencedCluster) : Policy Str where
  ns := cluster.ns
  podSelector := { matchLabels := clusterValkeyPodSelector cluster.name }
  directions := [.ingress, .egress]
  ingress := buildIngressRules cluster
  egress := buildEgressRules

/-- The policy a pass leaves; none, if it is off. -/
def reconcileNetworkPolicy (cluster : FencedCluster) : Option (Str × Policy Str) :=
  if networkPolicyEnabled cluster then
    some (networkPolicyName cluster.name, buildNetworkPolicySpec cluster)
  else none

/-! ## The pods of a cluster -/

theorem lookup_copyLabel_ne {labels l : StrMap} {key key' : Str} (h : key' ≠ key) :
    (copyLabel labels l key).lookup key' = l.lookup key' := by
  unfold copyLabel
  split
  · exact AList.lookup_insert_ne h
  · rfl

theorem lookup_ownedLabels_component (name : Str) (labels : StrMap) :
    (ownedLabels name labels).lookup labelComponent = some componentValkey := by
  unfold ownedLabels
  simp only [List.foldl_cons, List.foldl_nil]
  rw [lookup_copyLabel_ne (by decide), lookup_copyLabel_ne (by decide),
    lookup_copyLabel_ne (by decide), AList.lookup_insert_ne (by decide)]
  rfl

theorem lookup_ownedLabels_cluster (name : Str) {labels : StrMap} (h : labels.get labelCluster ≠ []) :
    (ownedLabels name labels).lookup labelCluster = some (labels.get labelCluster) := by
  unfold ownedLabels
  simp only [List.foldl_cons, List.foldl_nil]
  rw [lookup_copyLabel_ne (by decide), lookup_copyLabel_ne (by decide), copyLabel, if_pos h,
    AList.lookup_insert]

theorem lookup_nodeLabels_cluster {cluster : Str} (h : cluster ≠ []) (shard node : Int) :
    (nodeLabels cluster shard node).lookup labelCluster = some cluster := by
  have hget : (clusterTopologyLabels cluster shard node).get labelCluster = cluster := rfl
  rw [nodeLabels, lookup_ownedLabels_cluster _ (by rwa [hget]), hget]

/-- A pod of the node at a position: it has the labels of the node's template, and possibly
those of its workload. -/
structure IsNodePod (cluster : FencedCluster) (key : NodeKey) (pod : Pod Str) : Prop where
  ns : pod.ns = cluster.ns
  labels : ∀ name value, (ownedLabels (keyName cluster.name key)
    (nodeLabels cluster.name key.shard key.node)).lookup name = some value → pod.labels name = some value

variable {cluster : FencedCluster} {key : NodeKey} {pod : Pod Str}

theorem IsNodePod.componentLabel (h : IsNodePod cluster key pod) :
    pod.labels labelComponent = some componentValkey :=
  h.labels _ _ (lookup_ownedLabels_component _ _)

theorem IsNodePod.clusterLabel (h : IsNodePod cluster key pod) (hname : cluster.name ≠ []) :
    pod.labels labelCluster = some cluster.name := by
  have hget : (nodeLabels cluster.name key.shard key.node).get labelCluster = cluster.name := by
    rw [StrMap.get, lookup_nodeLabels_cluster hname]
    rfl
  refine h.labels _ _ ?_
  rw [lookup_ownedLabels_cluster _ (by rwa [hget]), hget]

theorem IsNodePod.selected (h : IsNodePod cluster key pod) (hname : cluster.name ≠ []) :
    (buildNetworkPolicySpec cluster).selects pod = true := by
  simp [Policy.selects, buildNetworkPolicySpec, clusterValkeyPodSelector, LabelSelector.selects, h.ns,
    h.clusterLabel hname, h.componentLabel]

/-! ## The flows -/

theorem IsNodePod.same_cluster (h : IsNodePod cluster key pod) (hname : cluster.name ≠ []) :
    (podPeer (clusterSelector cluster.name)).admits cluster.ns pod = true := by
  simp [Peer.admits, podPeer, clusterSelector, LabelSelector.selects, h.ns, h.clusterLabel hname]

/-- The pods of a cluster accept what they send each other. -/
theorem allowsIngress_intra (h : IsNodePod cluster key pod) (hname : cluster.name ≠ []) (dst : Pod Str)
    {port : Int} (hport : port = portClient ∨ port = portBus) :
    (buildNetworkPolicySpec cluster).allowsIngress pod dst .tcp port = true := by
  have hadmits : ∀ p, Rule.admits cluster.ns
      { peers := [podPeer (clusterSelector cluster.name)], ports := tcpPorts p } pod .tcp p = true := by
    intro p
    simp [Rule.admits, Rule.opens, tcpPorts, h.same_cluster hname]
  rcases hport with rfl | rfl
  · exact Policy.allowsIngress_of_rule (by simp [buildNetworkPolicySpec, buildIngressRules]) (hadmits _)
  · exact Policy.allowsIngress_of_rule (by simp [buildNetworkPolicySpec, buildIngressRules]) (hadmits _)

/-- But none of them may send it. -/
theorem not_allowsEgress_intra (h : IsNodePod cluster key pod) (hname : cluster.name ≠ []) (dst : Pod Str)
    {port : Int} (hport : port = portClient ∨ port = portBus) :
    (buildNetworkPolicySpec cluster).allowsEgress pod dst .tcp port = false := by
  refine Policy.not_allowsEgress (h.selected hname) (by simp [buildNetworkPolicySpec]) ?_
  change ∀ rule ∈ buildEgressRules, rule.opens .tcp port = false
  rcases hport with rfl | rfl <;> decide

theorem metricsIngress_opens (cluster : FencedCluster) (port : Int) :
    (metricsIngress cluster).opens .tcp port = true ↔ port = 9121 := by
  simp [metricsIngress, Rule.opens, tcpPorts, metricsPort, eq_comm]

/-- The policy serves the pods of a cluster exactly if there are no two of them and the
exporter, if there is one, listens on its default port. -/
theorem networkPolicy_serves_iff {policy : Policy Str} (hname : cluster.name ≠ [])
    (hpolicy : reconcileNetworkPolicy cluster = some (networkPolicyName cluster.name, policy))
    {pods : List (Pod Str)} (hpods : ∀ pod ∈ pods, ∃ key, IsNodePod cluster key pod)
    (key : NodeKey) (configHash : Str) :
    ((∀ src ∈ pods, ∀ dst ∈ pods, src ≠ dst → ∀ port, port = portClient ∨ port = portBus →
        policy.allowsEgress src dst .tcp port = true ∧ policy.allowsIngress src dst .tcp port = true) ∧
      (cluster.spec.exporter.enabled = true → metricsIngress cluster ∈ policy.ingress ∧
        (metricsIngress cluster).opens .tcp (exporterPort
          (buildValkeyNodeSpec cluster.toPerconaValkeyCluster key configHash)) = true)) ↔
    (∀ src ∈ pods, ∀ dst ∈ pods, src = dst) ∧
      (cluster.spec.exporter.enabled = true →
        cluster.spec.exporter.port = none ∨ cluster.spec.exporter.port = some 9121) := by
  have hspec : policy = buildNetworkPolicySpec cluster := by
    unfold reconcileNetworkPolicy at hpolicy
    split at hpolicy
    · exact (Prod.mk.inj (Option.some.inj hpolicy)).2.symm
    · cases hpolicy
  subst hspec
  have hmetrics : metricsIngress cluster ∈ (buildNetworkPolicySpec cluster).ingress := by
    simp [buildNetworkPolicySpec, buildIngressRules]
  have hport : exporterPort (buildValkeyNodeSpec cluster.toPerconaValkeyCluster key configHash) = 9121 ↔
      cluster.spec.exporter.port = none ∨ cluster.spec.exporter.port = some 9121 := by
    rw [exporterPort, buildValkeyNodeSpec]
    cases cluster.spec.exporter.port with
    | none => simp [portExporter]
    | some p => simp
  refine and_congr ⟨fun h src hsrc dst hdst => ?_, fun h src hsrc dst hdst hne => ?_⟩ ?_
  · by_contra hne
    obtain ⟨k, hpod⟩ := hpods src hsrc
    have hallowed := (h src hsrc dst hdst hne portBus (.inr rfl)).1
    rw [not_allowsEgress_intra hpod hname dst (.inr rfl)] at hallowed
    cases hallowed
  · exact absurd (h src hsrc dst hdst) hne
  · rw [metricsIngress_opens, hport, and_iff_right hmetrics]

/-- One pod behind the policy. -/
def lone : FencedCluster where
  name := "prod"
  ns := "db"
  spec := { shards := 1, exporter := { enabled := true } }
  networkPolicy := some { enabled := some true }

def nodePod (cluster : FencedCluster) (key : NodeKey) : Pod Str where
  name := keyName cluster.name key
  ns := cluster.ns
  nsLabels := fun _ => none
  labels := fun name => (ownedLabels (keyName cluster.name key)
    (nodeLabels cluster.name key.shard key.node)).lookup name

theorem nodePod_isNodePod (cluster : FencedCluster) (key : NodeKey) :
    IsNodePod cluster key (nodePod cluster key) :=
  ⟨rfl, fun _ _ h => h⟩

theorem networkPolicy_serves_lone :
    reconcileNetworkPolicy lone = some (networkPolicyName lone.name, buildNetworkPolicySpec lone) ∧
    (metricsIngress lone).opens .tcp (exporterPort
      (buildValkeyNodeSpec lone.toPerconaValkeyCluster ⟨0, 0⟩ [])) = true := by
  have hname : lone.name ≠ [] := by decide
  have hpolicy : reconcileNetworkPolicy lone =
      some (networkPolicyName lone.name, buildNetworkPolicySpec lone) := rfl
  have hpods : ∀ pod ∈ [nodePod lone ⟨0, 0⟩], ∃ key, IsNodePod lone key pod := by
    intro pod hpod
    rw [List.mem_singleton.mp hpod]
    exact ⟨_, nodePod_isNodePod lone ⟨0, 0⟩⟩
  have hserves := (networkPolicy_serves_iff hname hpolicy hpods ⟨0, 0⟩ []).mpr
    ⟨by simp, fun _ => .inl rfl⟩
  exact ⟨hpolicy, (hserves.2 rfl).2⟩

/-- Two primaries behind the policy, with the exporter moved to another port. -/
def fenced : FencedCluster where
  name := "prod"
  ns := "db"
  spec := { shards := 2, exporter := { enabled := true, port := some 9400 } }
  networkPolicy := some { enabled := some true }

/-- The receiver would accept the bus connection and the sender may not open it; and the
metrics rule is about another port than the exporter's. -/
theorem networkPolicy_closes_bus :
    networkPolicyEnabled fenced = true ∧
    (buildNetworkPolicySpec fenced).allowsIngress (nodePod fenced ⟨0, 0⟩) (nodePod fenced ⟨1, 0⟩)
      .tcp portBus = true ∧
    (buildNetworkPolicySpec fenced).allowsEgress (nodePod fenced ⟨0, 0⟩) (nodePod fenced ⟨1, 0⟩)
      .tcp portBus = false ∧
    (buildNetworkPolicySpec fenced).allowsEgress (nodePod fenced ⟨0, 0⟩) (nodePod fenced ⟨1, 0⟩)
      .tcp portClient = false ∧
    exporterPort (buildValkeyNodeSpec fenced.toPerconaValkeyCluster ⟨0, 0⟩ []) = 9400 ∧
    (metricsIngress fenced).opens .tcp 9400 = false := by
  have hname : fenced.name ≠ [] := by decide
  have hpod := nodePod_isNodePod fenced ⟨0, 0⟩
  exact ⟨rfl, allowsIngress_intra hpod hname _ (.inr rfl), not_allowsEgress_intra hpod hname _ (.inr rfl),
    not_allowsEgress_intra hpod hname _ (.inl rfl), rfl, by decide⟩

end ValkeyOperator.Cluster

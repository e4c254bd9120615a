import ValkeyOperator.Cluster.Api
import ValkeyOperator.Lib.Wire
import ValkeyOperator.Valkey.Plan

/-! Nodes, their engines and what one pass sees of them
(`perconavalkeycluster/state.go`, positions of `bootstrap.go`).

A pass lists all ValkeyNodes but learns about an engine only when the node has
a published pod address and the engine answers. Positions come from the nodes'
labels and are found again by pod address. -/

namespace ValkeyOperator.Cluster
open Text Valkey Api

/-- A ValkeyNode with the engine in its pod, and whether that engine answers in
this pass. -/
structure Member where
  node : ValkeyNode
  engine : NodeState
  answers : Bool := true

/-- The engine owns some slot. -/
def Member.Owns (m : Member) : Prop := ∃ r ∈ m.engine.slots, r.start ≤ r.stop

instance (m : Member) : Decidable m.Owns :=
  inferInstanceAs (Decidable (∃ r ∈ m.engine.slots, r.start ≤ r.stop))

/-- A ready node at a position, with its pod's address. -/
def nodeAt (cluster : Str) (shard node : Int) (podIP : Str) : ValkeyNode :=
  { name := nodeName cluster shard node
    labels := nodeLabels cluster shard node
    status := { observedGeneration := 1, ready := true, podIP := podIP } }

/-- What the scrape of one member yields. -/
def Member.scraped (m : Member) : Option NodeState :=
  if m.node.status.podIP = [] then none
  else if m.answers then some { m.engine with addr := clientAddr m.node.status.podIP }
  else none

def nodesOf (members : List Member) : List ValkeyNode := members.map (·.node)

/-- `getValkeyClusterState`: nothing when no node could be scraped. -/
def getValkeyClusterState (members : List Member) : Option ClusterState :=
  match members.filterMap Member.scraped with
  | [] => none
  | scraped => some (newClusterState scraped)

structure NodePosition where
  shard : Int
  node : Int
deriving DecidableEq

def NodePosition.isPrimary (p : NodePosition) : Bool := p.node = 0

/-- The position a node's labels give, keyed by its pod address. -/
def positionOf (n : ValkeyNode) : Option (Str × NodePosition) :=
  if n.status.podIP = [] then none
  else
    match n.shardLabel, n.nodeLabel with
    | some shard, some node => some (n.status.podIP, ⟨shard, node⟩)
    | _, _ => none

def positionsByIP (nodes : List ValkeyNode) : GoMap Str NodePosition :=
  (nodes.filterMap positionOf).foldl (fun m e => m.insert e.1 e.2) ∅

/-- The address up to its last colon. -/
def hostFromAddr (addr : Str) : Str :=
  if addr.contains ':' then ((addr.rdropWhile (· != ':')).dropLast) else addr

def positionFor (positions : GoMap Str NodePosition) (n : NodeState) : Option NodePosition :=
  positions.lookup (trimSuffix n.addr (':' :: itoa clientPort))

def sortByAddr (S : Sorter NodeState) (ns : List NodeState) : List NodeState :=
  S.sort compareByAddr ns

/-- The engine commands that change the cluster. -/
inductive Command where
  | forget (id : Str)
  | addSlotsRange (ranges : List SlotRange)
  | setConfigEpoch (epoch : Int)
  /-- at the client and bus ports every node has -/
  | meet (ip : Str)
  | replicate (primaryID : Str)
deriving DecidableEq

/-- The engines as the wire to them: commands with the scraped node they go to. -/
abbrev Engines := Wire (NodeState × Command)

/-! ## What the state says about the members -/

theorem newClusterState_nodes (scraped : List NodeState) :
    (newClusterState scraped).nodes = scraped := by
  suffices ∀ (ns : List NodeState) (s : ClusterState), (ns.foldl groupNode s).nodes = s.nodes from
    this scraped _
  intro ns
  induction ns with
  | nil => exact fun _ => rfl
  | cons n ns ih =>
    intro s
    rw [List.foldl_cons, ih]
    unfold groupNode
    split <;> rfl

theorem getValkeyClusterState_nodes {members : List Member} {state : ClusterState}
    (h : getValkeyClusterState members = some state) :
    state.nodes = members.filterMap Member.scraped := by
  unfold getValkeyClusterState at h
  split at h
  · cases h
  · cases h
    exact newClusterState_nodes _

theorem itoa_clientPort : itoa clientPort = ['6', '3', '7', '9'] := by decide

theorem hostFromAddr_clientAddr (podIP : Str) : hostFromAddr (clientAddr podIP) = podIP := by
  unfold hostFromAddr clientAddr
  rw [if_pos (by simp), itoa_clientPort]
  simp [List.rdropWhile]

theorem mem_scraped {members : List Member} {n : NodeState}
    (h : n ∈ members.filterMap Member.scraped) :
    ∃ m ∈ members, n.id = m.engine.id ∧ m.node.status.podIP ≠ [] ∧
      hostFromAddr n.addr = m.node.status.podIP := by
  obtain ⟨m, hm, hscraped⟩ := List.mem_filterMap.mp h
  unfold Member.scraped at hscraped
  split at hscraped
  · cases hscraped
  · split at hscraped
    · cases hscraped
      exact ⟨m, hm, rfl, ‹_›, hostFromAddr_clientAddr _⟩
    · cases hscraped

end ValkeyOperator.Cluster

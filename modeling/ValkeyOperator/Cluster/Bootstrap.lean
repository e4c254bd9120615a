import ValkeyOperator.Cluster.Members
import ValkeyOperator.Valkey.Scrape

/-! Slot assignment at bootstrap (`perconavalkeycluster/bootstrap.go`).

The slots no scraped shard owns are split evenly over the pending primaries in
address order. Ownership is read from each scraped node's own line only; what
the tables say about nodes that were not scraped plays no part. -/

namespace ValkeyOperator.Cluster
open Text Valkey Api

/-- The slotless primaries at node index 0, in address order; isolated ones only
where a cluster has a single node. -/
def pendingPrimaries (S : Sorter NodeState) (state : ClusterState)
    (positions : GoMap Str NodePosition) (allowIsolated : Bool) : List NodeState :=
  sortByAddr S (state.pendingNodes.filter fun n =>
    !(n.isIsolated && !allowIsolated) &&
      match positionFor positions n with
      | some pos => pos.isPrimary
      | none => false)

/-- The pending primaries of a pass. -/
def primariesToFill (S : Sorter NodeState) (cluster : PerconaValkeyCluster) (state : ClusterState)
    (nodes : List ValkeyNode) : List NodeState :=
  pendingPrimaries S state (positionsByIP nodes)
    (cluster.spec.shards = 1 ∧ cluster.spec.replicas = 0)

/-- The loop over the primaries and their plans; it counts the assignments. -/
def assignEach : List (NodeState × List SlotRange) → Nat → Action Engines Nat
  | [], assigned => pure assigned
  | (p, ranges) :: rest, assigned =>
    if ranges = [] then assignEach rest assigned
    else
      (Wire.send (p, .addSlotsRange ranges)).mapErr (Err.wrap
        ("CLUSTER ADDSLOTSRANGE " ++ formatSlotRanges ranges ++ " -> " ++ p.addr))
      >>= fun _ => assignEach rest (assigned + 1)

def assignSlotsToPendingPrimaries (S : Sorter NodeState) (cluster : PerconaValkeyCluster)
    (state : ClusterState) (nodes : List ValkeyNode) : Action Engines Nat :=
  let primaries := primariesToFill S cluster state nodes
  if primaries = [] then pure 0
  else
    let unassigned := state.getUnassignedSlots
    if unassigned = [] then pure 0
    else assignEach (primaries.zip (splitUnassignedEvenly unassigned primaries.length)) 0

/-! ## The commands of a pass -/

def assignments (plans : List (NodeState × List SlotRange)) : List (NodeState × Command) :=
  plans.flatMap fun plan => if plan.2 = [] then [] else [(plan.1, .addSlotsRange plan.2)]

theorem assignEach_issues (plans : List (NodeState × List SlotRange)) (assigned : Nat) :
    ∃ n, Wire.Issues (assignEach plans assigned) n (assignments plans) := by
  induction plans generalizing assigned with
  | nil => exact ⟨assigned, Wire.Issues.pure assigned⟩
  | cons plan rest ih =>
    obtain ⟨p, ranges⟩ := plan
    unfold assignEach assignments
    rw [List.flatMap_cons]
    dsimp only
    split
    · exact ih assigned
    · obtain ⟨n, hrest⟩ := ih (assigned + 1)
      exact ⟨n, ((Wire.Issues.send _).mapErr _).bind hrest⟩

/-- The primaries with the chunks planned for them. -/
def plans (S : Sorter NodeState) (cluster : PerconaValkeyCluster) (state : ClusterState)
    (nodes : List ValkeyNode) : List (NodeState × List SlotRange) :=
  (primariesToFill S cluster state nodes).zip (splitUnassignedEvenly state.getUnassignedSlots
    (primariesToFill S cluster state nodes).length)

/-- With nothing to hand out all chunks are empty, and no command is issued. -/
theorem assignments_plans_of_full {S : Sorter NodeState} {cluster : PerconaValkeyCluster}
    {state : ClusterState} {nodes : List ValkeyNode} (hfull : state.getUnassignedSlots = []) :
    assignments (plans S cluster state nodes) = [] := by
  refine List.flatMap_eq_nil_iff.mpr fun plan hplan => if_pos ?_
  unfold plans at hplan
  rw [hfull, splitUnassignedEvenly_nil] at hplan
  exact List.eq_of_mem_replicate (List.of_mem_zip hplan).2

theorem assignSlotsToPendingPrimaries_issues (S : Sorter NodeState)
    (cluster : PerconaValkeyCluster) (state : ClusterState) (nodes : List ValkeyNode) :
    ∃ n, Wire.Issues (assignSlotsToPendingPrimaries S cluster state nodes) n
      (assignments (plans S cluster state nodes)) := by
  unfold assignSlotsToPendingPrimaries
  dsimp only
  split
  · rename_i hnone
    unfold plans
    rw [hnone]
    exact ⟨0, Wire.Issues.pure 0⟩
  · split
    · rename_i hfull
      rw [assignments_plans_of_full hfull]
      exact ⟨0, Wire.Issues.pure 0⟩
    · exact assignEach_issues _ 0

theorem mem_assignments {plans : List (NodeState × List SlotRange)} {p : NodeState}
    {ranges : List SlotRange} :
    (p, Command.addSlotsRange ranges) ∈ assignments plans ↔ ranges ≠ [] ∧ (p, ranges) ∈ plans := by
  unfold assignments
  rw [List.mem_flatMap]
  constructor
  · intro h
    obtain ⟨plan, hplan, hc⟩ := h
    split at hc
    · cases hc
    · rename_i hne
      rw [List.mem_singleton, Prod.mk.injEq, Command.addSlotsRange.injEq] at hc
      obtain ⟨rfl, rfl⟩ := hc
      exact ⟨hne, hplan⟩
  · intro h
    obtain ⟨hne, hplan⟩ := h
    exact ⟨(p, ranges), hplan, by simp [hne]⟩

section Plans

variable {S : Sorter NodeState} {cluster : PerconaValkeyCluster} {state : ClusterState}
  {nodes : List ValkeyNode}

theorem getElem?_plans (h : Ordered (state.shards.flatMap (·.slots))) {i : Nat} {p : NodeState}
    (hp : (primariesToFill S cluster state nodes)[i]? = some p) :
    ∃ chunk, (plans S cluster state nodes)[i]? = some (p, chunk) ∧
      ∀ s, Covers chunk s ↔
        s ∈ evenShare state.freeSlots (primariesToFill S cluster state nodes).length i := by
  obtain ⟨chunk, hchunk⟩ : ∃ chunk, (splitUnassignedEvenly state.getUnassignedSlots
      (primariesToFill S cluster state nodes).length)[i]? = some chunk := by
    refine ⟨_, List.getElem?_eq_getElem ?_⟩
    rw [splitUnassignedEvenly_length]
    exact (List.getElem?_eq_some_iff.mp hp).1
  refine ⟨chunk, List.getElem?_zip_eq_some.mpr ⟨hp, hchunk⟩, fun s => ?_⟩
  rw [covers_splitUnassignedEvenly (ClusterState.getUnassignedSlots_spec h).1 hchunk,
    ClusterState.expand_getUnassignedSlots h]

theorem mem_plans (h : Ordered (state.shards.flatMap (·.slots))) {p : NodeState}
    {chunk : List SlotRange} (hplan : (p, chunk) ∈ plans S cluster state nodes) :
    ∃ i, (primariesToFill S cluster state nodes)[i]? = some p ∧
      ∀ s, Covers chunk s ↔
        s ∈ evenShare state.freeSlots (primariesToFill S cluster state nodes).length i := by
  obtain ⟨i, hi⟩ := List.mem_iff_getElem?.mp hplan
  have hp := (List.getElem?_zip_eq_some.mp hi).1
  obtain ⟨chunk', hchunk', hcovers⟩ := getElem?_plans h hp
  rw [hi, Option.some.injEq, Prod.mk.injEq] at hchunk'
  exact ⟨i, hp, hchunk'.2 ▸ hcovers⟩

theorem covers_plans (h : Ordered (state.shards.flatMap (·.slots)))
    {Q : NodeState → Int → Prop} :
    (∀ plan ∈ plans S cluster state nodes, ∀ s, Covers plan.2 s → Q plan.1 s) ↔
    ∀ i p, (primariesToFill S cluster state nodes)[i]? = some p →
      ∀ s ∈ evenShare state.freeSlots (primariesToFill S cluster state nodes).length i, Q p s := by
  constructor
  · intro hall i p hp s hs
    obtain ⟨chunk, hplan, hcovers⟩ := getElem?_plans h hp
    exact hall (p, chunk) (List.mem_of_getElem? hplan) s ((hcovers s).mpr hs)
  · intro hall plan hplan s hs
    obtain ⟨i, hp, hcovers⟩ := mem_plans h hplan
    exact hall i plan.1 hp s ((hcovers s).mp hs)

end Plans

/-! ## What the tables say about assigned slots -/

/-- No table lists the slot for a node with another ID. -/
def ListedOnlyFor (texts : List NodeReplies) (id : Str) (s : Int) : Prop :=
  ∀ t ∈ texts, ∀ line ∈ parsedLines t.clusterNodes, Covers line.slots s → line.id = id

instance (texts : List NodeReplies) (id : Str) (s : Int) : Decidable (ListedOnlyFor texts id s) :=
  inferInstanceAs (Decidable (∀ t ∈ texts, ∀ line ∈ parsedLines t.clusterNodes,
    Covers line.slots s → line.id = id))

/-- Bootstrap takes no slot that a table lists for another node, whatever the
engines answer, exactly when every slot that no scraped shard owns is listed at
most for the pending primary whose even share contains it. -/
theorem assignSlots_unlisted_iff (S : Sorter NodeState) (cluster : PerconaValkeyCluster)
    (texts : List NodeReplies) (nodes : List ValkeyNode) :
    let state := newClusterState (texts.map NodeReplies.state)
    let primaries := primariesToFill S cluster state nodes
    (∀ replies, ∀ c ∈ ((assignSlotsToPendingPrimaries S cluster state nodes).after
        ⟨[], replies⟩).sent,
      ∀ ranges, c.2 = .addSlotsRange ranges → ∀ s, Covers ranges s → ListedOnlyFor texts c.1.id s) ↔
    ∀ i p, primaries[i]? = some p →
      ∀ s ∈ evenShare state.freeSlots primaries.length i, ListedOnlyFor texts p.id s := by
  intro state primaries
  have hordered : Ordered (state.shards.flatMap (·.slots)) := by
    refine newClusterState_ordered fun n hn => ?_
    obtain ⟨t, -, rfl⟩ := List.mem_map.mp hn
    exact t.state_ordered
  obtain ⟨n, hissues⟩ := assignSlotsToPendingPrimaries_issues S cluster state nodes
  rw [hissues.forall_sent_iff, ← covers_plans hordered]
  constructor
  · intro h plan hplan s hs
    obtain ⟨p, ranges⟩ := plan
    have hne : ranges ≠ [] := by
      intro hnil
      subst hnil
      obtain ⟨r, hr, -⟩ := hs
      cases hr
    exact h _ (mem_assignments.mpr ⟨hne, hplan⟩) ranges rfl s hs
  · intro h sent hsent ranges hcommand s hs
    obtain ⟨p, c⟩ := sent
    subst hcommand
    exact h (p, ranges) (mem_assignments.mp hsent).2 s hs

/-- The node table of a cluster in which the primary `c3` of slot 16383 has
crashed; its replica `d4` is alive and `a1` has just joined. -/
def crashedTable (me : Str) : Str :=
  let flags := fun id rest => (if id = me then "myself,".toList else []) ++ rest
  "a1 10.0.0.1:6379@16379 " ++ flags "a1" "master - 0 0 4 connected\n" ++
  "b2 10.0.0.2:6379@16379 " ++ flags "b2" "master - 0 0 2 connected 0-16382\n" ++
  "c3 10.0.0.3:6379@16379 master,fail - 0 0 3 connected 16383\n" ++
  "d4 10.0.0.4:6379@16379 " ++ flags "d4" "slave c3 0 0 3 connected\n"

def crashedPrimary : List NodeReplies :=
  [⟨"a1", "s1", "10.0.0.1:6379", "role:master\r\n",
      "cluster_known_nodes:4\r\n", crashedTable "a1"⟩,
   ⟨"b2", "s2", "10.0.0.2:6379", "role:master\r\n", "cluster_known_nodes:4\r\n", crashedTable "b2"⟩,
   ⟨"d4", "s3", "10.0.0.4:6379", "role:slave\r\n", "cluster_known_nodes:4\r\n", crashedTable "d4"⟩]

/-- The joined primary is handed the slot of the crashed one, although every
table lists its owner. -/
theorem assignSlots_takes_crashed_slot :
    ∃ c ∈ ((assignSlotsToPendingPrimaries .insertion
        { name := "prod", spec := { shards := 3, replicas := 1 } }
        (newClusterState (crashedPrimary.map NodeReplies.state))
        [nodeAt "prod" 0 0 "10.0.0.2", nodeAt "prod" 1 0 "10.0.0.3",
          nodeAt "prod" 1 1 "10.0.0.4",
          nodeAt "prod" 2 0 "10.0.0.1"]).after {}).sent,
      c.1.id = "a1" ∧ c.2 = .addSlotsRange [⟨16383, 16383⟩] ∧
      ¬ ListedOnlyFor crashedPrimary c.1.id 16383 := by
  decide +kernel

end ValkeyOperator.Cluster

import ValkeyOperator.Valkey.Scrape

/-! What grouping makes of a table of nodes.

A primary without slots is set aside. The shards are the shard IDs of the other
nodes, each with all its nodes, and own what the last primary among them owns.
Where IDs are told apart, the shards' primaries are the slot-owning primaries of
the table. -/

namespace ValkeyOperator.Valkey
open Text

variable {nodes : List NodeState} {ids : List Str} {n p : NodeState} {id : Str}

namespace NodeState

/-- Set aside by the grouping. -/
def isPending (n : NodeState) : Bool := n.isPrimary && decide (n.numSlots = 0)

def ownsSlots (n : NodeState) : Bool := n.isPrimary && decide (n.numSlots ≠ 0)

theorem isReplica_eq_not_isPrimary (n : NodeState) : n.isReplica = !n.isPrimary := by
  unfold isReplica isPrimary
  cases n.role <;> rfl

theorem ownsSlots_eq (n : NodeState) : n.ownsSlots = (n.isPrimary && !n.isPending) := by
  unfold ownsSlots isPending
  cases n.isPrimary <;> simp

end NodeState

theorem groupNode_of_pending {s : ClusterState} (h : n.isPending = true) :
    groupNode s n = { s with pendingNodes := s.pendingNodes ++ [n] } := by
  unfold NodeState.isPending at h
  rw [Bool.and_eq_true, decide_eq_true_eq] at h
  exact if_pos h

theorem groupNode_of_not_pending {s : ClusterState} (h : n.isPending = false) :
    groupNode s n = { s with shards := joinShard n s.shards } := by
  refine if_neg fun hp => ?_
  simp [NodeState.isPending, hp.1, hp.2] at h

/-! ## One shard -/

/-- The nodes that are grouped under a shard ID. -/
def shardNodes (nodes : List NodeState) (id : Str) : List NodeState :=
  nodes.filter fun n => !n.isPending && decide (n.shardID = id)

/-- The shard they make up. -/
def shardOf (nodes : List NodeState) (id : Str) : ShardState :=
  (shardNodes nodes id).foldl ShardState.attach { id := id }

/-- The primary that attached last. -/
def lastPrimary (ns : List NodeState) : Option NodeState := (ns.filter NodeState.isPrimary).getLast?

theorem mem_shardNodes :
    n ∈ shardNodes nodes id ↔ n ∈ nodes ∧ n.isPending = false ∧ n.shardID = id := by
  simp [shardNodes]

theorem mem_of_lastPrimary {ns : List NodeState} (h : lastPrimary ns = some p) :
    p ∈ ns ∧ p.isPrimary = true :=
  List.mem_filter.mp (List.mem_of_getLast? h)

theorem lastPrimary_eq_none {ns : List NodeState} :
    lastPrimary ns = none ↔ ∀ n ∈ ns, n.isPrimary = false := by
  simp [lastPrimary]

theorem lastPrimary_cons (n : NodeState) (ns : List NodeState) :
    lastPrimary (n :: ns) =
      (lastPrimary ns).or (if n.isPrimary then some n else none) := by
  unfold lastPrimary
  cases hn : n.isPrimary with
  | false => simp [hn]
  | true =>
    rw [List.filter_cons_of_pos hn, List.getLast?_cons]
    cases (ns.filter NodeState.isPrimary).getLast? <;> rfl

theorem foldl_attach (ns : List NodeState) (s : ShardState) :
    ns.foldl ShardState.attach s =
      { id := s.id
        primaryID := ((lastPrimary ns).map (·.id)).getD s.primaryID
        slots := ((lastPrimary ns).map (·.slots)).getD s.slots
        nodes := s.nodes ++ ns } := by
  induction ns generalizing s with
  | nil => simp [lastPrimary]
  | cons n ns ih =>
    rw [List.foldl_cons, ih, lastPrimary_cons]
    unfold ShardState.attach
    cases hlast : lastPrimary ns <;> cases hn : n.isPrimary <;> simp

theorem shardOf_eq (nodes : List NodeState) (id : Str) :
    shardOf nodes id =
      { id := id
        primaryID := ((lastPrimary (shardNodes nodes id)).map (·.id)).getD []
        slots := ((lastPrimary (shardNodes nodes id)).map (·.slots)).getD []
        nodes := shardNodes nodes id } := by
  rw [shardOf, foldl_attach]
  rfl

@[simp] theorem shardOf_id (nodes : List NodeState) (id : Str) : (shardOf nodes id).id = id := by
  rw [shardOf_eq]

@[simp] theorem shardOf_nodes (nodes : List NodeState) (id : Str) :
    (shardOf nodes id).nodes = shardNodes nodes id := by
  rw [shardOf_eq]

/-- A shard with slots owns those of a scraped primary of its own. -/
theorem shardOf_slots (nodes : List NodeState) (id : Str) :
    (shardOf nodes id).slots = [] ∨
      ∃ p ∈ nodes, p.ownsSlots = true ∧ p.shardID = id ∧ (shardOf nodes id).slots = p.slots := by
  rw [shardOf_eq]
  cases hlast : lastPrimary (shardNodes nodes id) with
  | none => exact .inl rfl
  | some p =>
    obtain ⟨hmem, hprimary⟩ := mem_of_lastPrimary hlast
    obtain ⟨hnodes, hpending, hid⟩ := mem_shardNodes.mp hmem
    refine .inr ⟨p, hnodes, ?_, hid, rfl⟩
    rw [NodeState.ownsSlots_eq, hprimary, hpending]
    rfl

theorem shardOf_concat_of_ne (h : n.isPending = true ∨ n.shardID ≠ id) :
    shardOf (nodes ++ [n]) id = shardOf nodes id := by
  have hnone : shardNodes (nodes ++ [n]) id = shardNodes nodes id := by
    rcases h with h | h <;> simp [shardNodes, List.filter_append, h]
  unfold shardOf
  rw [hnone]

theorem shardOf_concat (h : n.isPending = false) :
    shardOf (nodes ++ [n]) n.shardID = (shardOf nodes n.shardID).attach n := by
  have hlast : shardNodes (nodes ++ [n]) n.shardID = shardNodes nodes n.shardID ++ [n] := by
    simp [shardNodes, List.filter_append, h]
  unfold shardOf
  rw [hlast, List.foldl_append]
  rfl

/-! ## The whole table -/

theorem joinShard_new (hn : n.isPending = false) (hnew : n.shardID ∉ ids)
    (hnone : shardNodes nodes n.shardID = []) :
    joinShard n (ids.map (shardOf nodes)) =
      (ids ++ [n.shardID]).map (shardOf (nodes ++ [n])) := by
  induction ids with
  | nil =>
    rw [List.nil_append, List.map_singleton, shardOf_concat hn]
    unfold shardOf
    rw [hnone]
    rfl
  | cons id ids ih =>
    rw [List.mem_cons, not_or] at hnew
    rw [List.map_cons, joinShard, shardOf_id, if_neg (Ne.symm hnew.1), ih hnew.2, List.cons_append,
      List.map_cons, shardOf_concat_of_ne (.inr hnew.1)]

theorem joinShard_known (hn : n.isPending = false) (hids : ids.Nodup) (hknown : n.shardID ∈ ids) :
    joinShard n (ids.map (shardOf nodes)) = ids.map (shardOf (nodes ++ [n])) := by
  induction ids with
  | nil => cases hknown
  | cons id ids ih =>
    obtain ⟨hid, hids⟩ := List.nodup_cons.mp hids
    rw [List.map_cons, List.map_cons, joinShard, shardOf_id]
    split
    · rename_i heq
      subst heq
      have hrest : ids.map (shardOf nodes) = ids.map (shardOf (nodes ++ [n])) := by
        refine List.map_congr_left fun other hother => (shardOf_concat_of_ne (.inr ?_)).symm
        rintro rfl
        exact hid hother
      rw [shardOf_concat hn, hrest]
    · rename_i hne
      rw [ih hids ((List.mem_cons.mp hknown).resolve_left (Ne.symm hne)),
        shardOf_concat_of_ne (.inr (Ne.symm hne))]

/-- The shard IDs in use by the grouped nodes. -/
structure ShardIDs (nodes : List NodeState) (ids : List Str) : Prop where
  nodup : ids.Nodup
  mem : ∀ id, id ∈ ids ↔ ∃ n ∈ nodes, n.isPending = false ∧ n.shardID = id

theorem ShardIDs.shardNodes_eq_nil (h : ShardIDs nodes ids) (hid : id ∉ ids) :
    shardNodes nodes id = [] := by
  refine List.eq_nil_iff_forall_not_mem.mpr fun n hn => hid ((h.mem id).mpr ?_)
  exact ⟨n, mem_shardNodes.mp hn⟩

theorem ShardIDs.joinShard (h : ShardIDs nodes ids) (hn : n.isPending = false) :
    ∃ ids', ShardIDs (nodes ++ [n]) ids' ∧
      Valkey.joinShard n (ids.map (shardOf nodes)) = ids'.map (shardOf (nodes ++ [n])) := by
  by_cases hknown : n.shardID ∈ ids
  · refine ⟨ids, ⟨h.nodup, fun id => ?_⟩, joinShard_known hn h.nodup hknown⟩
    rw [h.mem]
    constructor
    · intro hold
      obtain ⟨m, hm, hp, hid⟩ := hold
      exact ⟨m, by simp [hm], hp, hid⟩
    · intro hnew
      obtain ⟨m, hm, hp, hid⟩ := hnew
      rcases List.mem_append.mp hm with hm | hm
      · exact ⟨m, hm, hp, hid⟩
      · rw [List.mem_singleton.mp hm] at hid
        exact hid ▸ (h.mem n.shardID).mp hknown
  · refine ⟨ids ++ [n.shardID], ⟨?_, fun id => ?_⟩,
      joinShard_new hn hknown (h.shardNodes_eq_nil hknown)⟩
    · refine List.nodup_append.mpr ⟨h.nodup, List.nodup_singleton _, fun a ha b hb => ?_⟩
      rw [List.mem_singleton.mp hb]
      rintro rfl
      exact hknown ha
    · rw [List.mem_append, List.mem_singleton, h.mem]
      simp only [List.mem_append, List.mem_singleton, or_and_right, exists_or, exists_eq_left, hn,
        true_and]
      exact or_congr Iff.rfl eq_comm

/-- The grouping of a table: its shards, and the primaries set aside. -/
theorem newClusterState_groups (nodes : List NodeState) :
    (∃ ids, ShardIDs nodes ids ∧ (newClusterState nodes).shards = ids.map (shardOf nodes)) ∧
      (newClusterState nodes).pendingNodes = nodes.filter NodeState.isPending := by
  -- `seen` are the nodes grouped so far
  suffices ∀ (rest seen : List NodeState) (s : ClusterState),
      (∃ ids, ShardIDs seen ids ∧ s.shards = ids.map (shardOf seen)) ∧
        s.pendingNodes = seen.filter NodeState.isPending →
      (∃ ids, ShardIDs (seen ++ rest) ids ∧
        (rest.foldl groupNode s).shards = ids.map (shardOf (seen ++ rest))) ∧
        (rest.foldl groupNode s).pendingNodes = (seen ++ rest).filter NodeState.isPending from
    this nodes [] _ ⟨⟨[], ⟨List.nodup_nil, by simp⟩, rfl⟩, rfl⟩
  intro rest
  induction rest with
  | nil =>
    intro seen s h
    rwa [List.append_nil]
  | cons n rest ih =>
    intro seen s h
    obtain ⟨⟨ids, hids, hshards⟩, hpending⟩ := h
    rw [List.foldl_cons, List.append_cons]
    refine ih (seen ++ [n]) (groupNode s n) ?_
    cases hn : n.isPending with
    | true =>
      rw [groupNode_of_pending hn]
      refine ⟨⟨ids, ⟨hids.nodup, fun id => ?_⟩, ?_⟩, ?_⟩
      · rw [hids.mem]
        simp [or_and_right, exists_or, hn]
      · exact hshards.trans
          (List.map_congr_left fun id _ => (shardOf_concat_of_ne (.inl hn)).symm)
      · simp [List.filter_append, hn, hpending]
    | false =>
      rw [groupNode_of_not_pending hn]
      obtain ⟨ids', hids', hjoin⟩ := hids.joinShard hn
      refine ⟨⟨ids', hids', ?_⟩, ?_⟩
      · dsimp only
        rw [hshards, hjoin]
      · simp [List.filter_append, hn, hpending]

theorem mem_newClusterState_shards {s : ShardState} :
    s ∈ (newClusterState nodes).shards ↔
      ∃ n ∈ nodes, n.isPending = false ∧ s = shardOf nodes n.shardID := by
  obtain ⟨⟨ids, hids, hshards⟩, -⟩ := newClusterState_groups nodes
  rw [hshards, List.mem_map]
  constructor
  · intro h
    obtain ⟨id, hid, rfl⟩ := h
    obtain ⟨n, hn, hp, rfl⟩ := (hids.mem id).mp hid
    exact ⟨n, hn, hp, rfl⟩
  · intro h
    obtain ⟨n, hn, hp, rfl⟩ := h
    exact ⟨n.shardID, (hids.mem _).mpr ⟨n, hn, hp, rfl⟩, rfl⟩

/-- What the shards own, scraped primaries own. -/
theorem primary_of_shards {r : SlotRange}
    (h : r ∈ (newClusterState nodes).shards.flatMap (·.slots)) :
    ∃ p ∈ nodes, p.isPrimary = true ∧ r ∈ p.slots := by
  obtain ⟨s, hs, hr⟩ := List.mem_flatMap.mp h
  obtain ⟨n, -, -, rfl⟩ := mem_newClusterState_shards.mp hs
  rcases shardOf_slots nodes n.shardID with hnone | ⟨p, hp, howns, -, heq⟩
  · rw [hnone] at hr
    cases hr
  · rw [heq] at hr
    rw [NodeState.ownsSlots_eq, Bool.and_eq_true] at howns
    exact ⟨p, hp, howns.1, hr⟩

theorem owner_of_shards {slot : Int}
    (h : Covers ((newClusterState nodes).shards.flatMap (·.slots)) slot) :
    ∃ p ∈ nodes, p.isPrimary = true ∧ Covers p.slots slot := by
  obtain ⟨r, hr, hin⟩ := h
  obtain ⟨p, hp, hprimary, hr⟩ := primary_of_shards hr
  exact ⟨p, hp, hprimary, r, hr, hin⟩

/-! ## What the grouping loses -/

/-- A slot-owning primary that no other one with its shard ID comes behind. -/
structure LastOfShard (nodes : List NodeState) (q : NodeState) : Prop where
  ownsSlots : q.ownsSlots = true
  last : ∃ front back, nodes = front ++ q :: back ∧
    ∀ m ∈ back, m.ownsSlots = true → m.shardID ≠ q.shardID

theorem lastPrimary_shardNodes (nodes : List NodeState) (id : Str) :
    lastPrimary (shardNodes nodes id) =
      nodes.reverse.find? fun n => n.ownsSlots && decide (n.shardID = id) := by
  have hfilter : (shardNodes nodes id).filter NodeState.isPrimary =
      nodes.filter fun n => n.ownsSlots && decide (n.shardID = id) := by
    rw [shardNodes, List.filter_filter]
    refine List.filter_congr fun n _ => ?_
    rw [NodeState.ownsSlots_eq, Bool.and_assoc]
  rw [lastPrimary, hfilter, List.getLast?_eq_head?_reverse, ← List.filter_reverse, List.head?_filter]

theorem lastPrimary_shardNodes_eq_some {q : NodeState} :
    lastPrimary (shardNodes nodes id) = some q ↔ LastOfShard nodes q ∧ q.shardID = id := by
  rw [lastPrimary_shardNodes, List.find?_eq_some_iff_append, Bool.and_eq_true, decide_eq_true_eq]
  constructor
  · rintro ⟨⟨howns, rfl⟩, back, front, hsplit, hback⟩
    refine ⟨⟨howns, front.reverse, back.reverse, ?_, fun m hm hm' => ?_⟩, rfl⟩
    · rw [← List.reverse_reverse nodes, hsplit]
      simp
    · simpa [hm'] using hback m (List.mem_reverse.mp hm)
  · rintro ⟨⟨howns, front, back, hsplit, hback⟩, rfl⟩
    refine ⟨⟨howns, rfl⟩, back.reverse, front.reverse, ?_, fun m hm => ?_⟩
    · rw [hsplit]
      simp
    · cases hm' : m.ownsSlots with
      | false => rfl
      | true => simpa using hback m (List.mem_reverse.mp hm) hm'

/-- The shards own the slots of the last slot-owning primaries of their IDs. -/
theorem covers_shards {slot : Int} :
    Covers ((newClusterState nodes).shards.flatMap (·.slots)) slot ↔
      ∃ q, LastOfShard nodes q ∧ Covers q.slots slot := by
  constructor
  · rintro ⟨r, hr, hin⟩
    obtain ⟨s, hs, hr⟩ := List.mem_flatMap.mp hr
    obtain ⟨n, -, -, rfl⟩ := mem_newClusterState_shards.mp hs
    rw [shardOf_eq] at hr
    cases hlast : lastPrimary (shardNodes nodes n.shardID) with
    | none =>
      rw [hlast] at hr
      cases hr
    | some q =>
      rw [hlast] at hr
      exact ⟨q, (lastPrimary_shardNodes_eq_some.mp hlast).1, r, hr, hin⟩
  · rintro ⟨q, hq, r, hr, hin⟩
    have hlast := lastPrimary_shardNodes_eq_some.mpr ⟨hq, rfl⟩
    obtain ⟨hmem, hpending, -⟩ := mem_shardNodes.mp (mem_of_lastPrimary hlast).1
    refine ⟨r, List.mem_flatMap.mpr ⟨shardOf nodes q.shardID, ?_, ?_⟩, hin⟩
    · exact mem_newClusterState_shards.mpr ⟨q, hmem, hpending, rfl⟩
    · rw [shardOf_eq, hlast]
      exact hr

/-- No slot of a scraped primary is reported as unassigned exactly if each is owned by a
primary that is the last one of its shard ID. -/
theorem getUnassignedSlots_spares_owned_iff (texts : List NodeReplies) :
    (∀ p ∈ texts.map NodeReplies.state, p.isPrimary = true → ∀ slot, Covers p.slots slot →
      ¬ Covers (newClusterState (texts.map NodeReplies.state)).getUnassignedSlots slot) ↔
    ∀ p ∈ texts.map NodeReplies.state, p.isPrimary = true → ∀ slot, Covers p.slots slot →
      0 ≤ slot → slot ≤ maxSlot →
      ∃ q, LastOfShard (texts.map NodeReplies.state) q ∧ Covers q.slots slot := by
  have hordered : ∀ n ∈ texts.map NodeReplies.state, Ordered n.slots := by
    intro n hn
    obtain ⟨t, -, rfl⟩ := List.mem_map.mp hn
    exact t.state_ordered
  obtain ⟨-, -, hunassigned⟩ :=
    ClusterState.getUnassignedSlots_spec (newClusterState_ordered hordered)
  refine forall₅_congr fun p _ _ slot _ => ?_
  rw [hunassigned, covers_shards, covers_singleton, not_and, not_not, and_imp]

/-- A primary that lost half of its slots, and the node that it shares its shard ID with. -/
def sharedShard : List NodeReplies :=
  let table : Str → Str := fun me =>
    let own := fun id => if id = me then "myself,".toList else []
    "a1 10.0.0.1:6379@16379 " ++ own "a1" ++
      "master - 0 0 1 connected 0-8191\n" ++
    "b2 10.0.0.2:6379@16379 " ++ own "b2" ++
      "master - 0 0 2 connected 8192-16383\n"
  let info := "cluster_state:ok\r\ncluster_known_nodes:2\r\n".toList
  [⟨"a1", "s1", "10.0.0.1:6379", "role:master\r\n", info,
      table "a1"⟩,
   ⟨"b2", "s1", "10.0.0.2:6379", "role:master\r\n", info,
      table "b2"⟩]

/-- The slots of the first are reported as unassigned. -/
theorem getUnassignedSlots_reports_owned :
    ∃ p ∈ sharedShard.map NodeReplies.state, p.isPrimary = true ∧ Covers p.slots 0 ∧
      Covers (newClusterState (sharedShard.map NodeReplies.state)).getUnassignedSlots 0 := by
  decide +kernel

/-! ## The primary of a shard -/

/-- The primary of a shard has the ID of the primary that attached last. -/
theorem shardOf_primary_of_last {q : NodeState}
    (hlast : lastPrimary (shardNodes nodes id) = some q) :
    ∃ p, (shardOf nodes id).primary = some p ∧ p.id = q.id := by
  unfold ShardState.primary
  rw [shardOf_nodes, shardOf_eq, hlast]
  change ∃ p, (shardNodes nodes id).find? (fun n => n.id == q.id) = some p ∧ p.id = q.id
  cases hfind : (shardNodes nodes id).find? fun n => n.id == q.id with
  | none =>
    have := List.find?_eq_none.mp hfind q (mem_of_lastPrimary hlast).1
    simp at this
  | some p =>
    have hid := List.find?_some hfind
    rw [beq_iff_eq] at hid
    exact ⟨p, rfl, hid⟩

/-- Conversely, unless its ID is empty. -/
theorem last_of_shardOf_primary (hprimary : (shardOf nodes id).primary = some p) (hid : p.id ≠ []) :
    ∃ q, lastPrimary (shardNodes nodes id) = some q ∧ q.id = p.id := by
  unfold ShardState.primary at hprimary
  rw [shardOf_eq] at hprimary
  have hfound := List.find?_some hprimary
  rw [beq_iff_eq] at hfound
  cases hlast : lastPrimary (shardNodes nodes id) with
  | none =>
    rw [hlast] at hfound
    exact absurd hfound hid
  | some q =>
    rw [hlast] at hfound
    exact ⟨q, rfl, hfound.symm⟩

/-- No two slot-owning primaries have the same shard ID. -/
def OneOwner (nodes : List NodeState) : Prop :=
  ((nodes.filter NodeState.ownsSlots).map (·.shardID)).Nodup

instance (nodes : List NodeState) : Decidable (OneOwner nodes) :=
  inferInstanceAs (Decidable (List.Nodup _))

/-- The last primary to attach to the shard of a slot-owning primary is that one. -/
theorem OneOwner.lastPrimary_shardNodes (h : OneOwner nodes) (hp : p ∈ nodes)
    (howns : p.ownsSlots = true) : lastPrimary (shardNodes nodes p.shardID) = some p := by
  have hparts := howns
  rw [NodeState.ownsSlots_eq, Bool.and_eq_true, Bool.not_eq_true'] at hparts
  have hmem : p ∈ shardNodes nodes p.shardID := mem_shardNodes.mpr ⟨hp, hparts.2, rfl⟩
  cases hlast : lastPrimary (shardNodes nodes p.shardID) with
  | none => simp [lastPrimary_eq_none.mp hlast p hmem] at hparts
  | some q =>
    obtain ⟨hq, hprimary⟩ := mem_of_lastPrimary hlast
    obtain ⟨hqnodes, hqpending, hqshard⟩ := mem_shardNodes.mp hq
    have hqowns : q.ownsSlots = true := by
      rw [NodeState.ownsSlots_eq, hprimary, hqpending]
      rfl
    rw [List.inj_on_of_nodup_map h (List.mem_filter.mpr ⟨hqnodes, hqowns⟩)
      (List.mem_filter.mpr ⟨hp, howns⟩) hqshard]

/-! ## Tables whose nodes are told apart -/

def primaries (nodes : List NodeState) : List NodeState := nodes.filter NodeState.isPrimary

theorem mem_primaries : p ∈ primaries nodes ↔ p ∈ nodes ∧ p.isPrimary = true := List.mem_filter

theorem primaries_map {f : NodeState → NodeState}
    (hf : ∀ n ∈ nodes, (f n).isPrimary = n.isPrimary) :
    primaries (nodes.map f) = (primaries nodes).map f := by
  unfold primaries
  rw [List.filter_map]
  congr 1
  exact List.filter_congr hf

/-- The primaries differ in address and shard ID, all nodes in their ID. -/
structure Distinct (nodes : List NodeState) : Prop where
  ids : (nodes.map (·.id)).Nodup
  addrs : ((primaries nodes).map (·.addr)).Nodup
  shards : ((primaries nodes).map (·.shardID)).Nodup

theorem Distinct.map {f : NodeState → NodeState} (h : Distinct nodes)
    (hprimary : ∀ n ∈ nodes, (f n).isPrimary = n.isPrimary) (hid : ∀ n ∈ nodes, (f n).id = n.id)
    (haddr : ∀ n ∈ nodes, (f n).addr = n.addr) (hshard : ∀ n ∈ nodes, (f n).shardID = n.shardID) :
    Distinct (nodes.map f) := by
  refine ⟨?_, ?_, ?_⟩
  · rw [List.map_map]
    exact (List.map_congr_left hid) ▸ h.ids
  · rw [primaries_map hprimary, List.map_map]
    exact (List.map_congr_left fun p hp => haddr p (mem_primaries.mp hp).1) ▸ h.addrs
  · rw [primaries_map hprimary, List.map_map]
    exact (List.map_congr_left fun p hp => hshard p (mem_primaries.mp hp).1) ▸ h.shards

/-- Moreover no replica goes without an ID. -/
structure ToldApart (nodes : List NodeState) : Prop extends Distinct nodes where
  named : ∀ n ∈ nodes, n.isReplica = true → n.id ≠ []

namespace Distinct

variable {nodes : List NodeState}

theorem eq_of_id (h : Distinct nodes) {a b : NodeState} (ha : a ∈ nodes) (hb : b ∈ nodes)
    (hid : a.id = b.id) : a = b :=
  List.inj_on_of_nodup_map h.ids ha hb hid

theorem nodup (h : Distinct nodes) : nodes.Nodup := List.Nodup.of_map _ h.ids

theorem oneOwner (h : Distinct nodes) : OneOwner nodes := by
  refine h.shards.sublist (List.Sublist.map _ ?_)
  refine List.monotone_filter_right nodes fun n howns => ?_
  rw [NodeState.ownsSlots_eq, Bool.and_eq_true] at howns
  exact howns.1

/-- The slots of a slot-owning primary are those of its shard. -/
theorem slots_shardOf (h : Distinct nodes) (hp : p ∈ nodes) (howns : p.ownsSlots = true) :
    (shardOf nodes p.shardID).slots = p.slots := by
  rw [shardOf_eq, h.oneOwner.lastPrimary_shardNodes hp howns]
  rfl

end Distinct

namespace ToldApart

variable {nodes : List NodeState}

/-- The primary of a shard is its slot-owning one. -/
theorem primary_shardOf (h : ToldApart nodes) :
    (shardOf nodes id).primary = some p ↔ p ∈ nodes ∧ p.ownsSlots = true ∧ p.shardID = id := by
  unfold ShardState.primary
  rw [shardOf_nodes, shardOf_eq]
  constructor
  · intro hfind
    obtain ⟨hnodes, hpending, hshard⟩ := mem_shardNodes.mp (List.mem_of_find?_eq_some hfind)
    have hid := List.find?_some hfind
    rw [beq_iff_eq] at hid
    refine ⟨hnodes, ?_, hshard⟩
    rw [NodeState.ownsSlots_eq, hpending, Bool.not_false, Bool.and_true]
    cases hlast : lastPrimary (shardNodes nodes id) with
    | none =>
      -- only replicas attached: the shard's primary ID is empty, and no replica has that one
      have hreplica := lastPrimary_eq_none.mp hlast p (List.mem_of_find?_eq_some hfind)
      rw [hlast] at hid
      refine absurd hid (h.named p hnodes ?_)
      rw [NodeState.isReplica_eq_not_isPrimary, hreplica]
      rfl
    | some q =>
      obtain ⟨hq, hprimary⟩ := mem_of_lastPrimary hlast
      rw [hlast] at hid
      rw [h.eq_of_id hnodes (mem_shardNodes.mp hq).1 hid]
      exact hprimary
  · intro hp
    obtain ⟨hnodes, howns, hshard⟩ := hp
    subst hshard
    rw [h.oneOwner.lastPrimary_shardNodes hnodes howns]
    change (shardNodes nodes p.shardID).find? (fun n => n.id == p.id) = some p
    rw [NodeState.ownsSlots_eq, Bool.and_eq_true, Bool.not_eq_true'] at howns
    cases hfind : (shardNodes nodes p.shardID).find? fun n => n.id == p.id with
    | none =>
      have := List.find?_eq_none.mp hfind p (mem_shardNodes.mpr ⟨hnodes, howns.2, rfl⟩)
      simp at this
    | some n =>
      have hid := List.find?_some hfind
      rw [beq_iff_eq] at hid
      have hn := (mem_shardNodes.mp (List.mem_of_find?_eq_some hfind)).1
      rw [h.eq_of_id hn hnodes hid]

/-- The shards' primaries are the slot-owning primaries of the table. -/
theorem shards_primary_perm (h : ToldApart nodes) :
    ((newClusterState nodes).shards.filterMap ShardState.primary).Perm
      (nodes.filter NodeState.ownsSlots) := by
  obtain ⟨⟨ids, hids, hshards⟩, -⟩ := newClusterState_groups nodes
  rw [hshards, List.filterMap_map]
  refine (List.perm_ext_iff_of_nodup ?_ (h.nodup.filter _)).mpr fun p => ?_
  · refine hids.nodup.filterMap fun a b p ha hb => ?_
    rw [← (h.primary_shardOf.mp ha).2.2, ← (h.primary_shardOf.mp hb).2.2]
  · rw [List.mem_filterMap, List.mem_filter]
    constructor
    · intro hp
      obtain ⟨id, -, hp⟩ := hp
      have := h.primary_shardOf.mp hp
      exact ⟨this.1, this.2.1⟩
    · intro hp
      obtain ⟨hnodes, howns⟩ := hp
      refine ⟨p.shardID, (hids.mem _).mpr ⟨p, hnodes, ?_, rfl⟩,
        h.primary_shardOf.mpr ⟨hnodes, howns, rfl⟩⟩
      rw [NodeState.ownsSlots_eq, Bool.and_eq_true, Bool.not_eq_true'] at howns
      exact howns.2

end ToldApart

end ValkeyOperator.Valkey

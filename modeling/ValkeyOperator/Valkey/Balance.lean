import Mathlib.Algebra.Order.BigOperators.Group.List
import Mathlib.Algebra.Order.Group.Nat
import ValkeyOperator.Valkey.Moves

/-! Runs of the rebalance planner.

The target of a primary is fixed by its place in address order, which no move
changes. A source lies above its target and stays there, a destination below; the
slots above target become fewer with every move. -/

namespace ValkeyOperator.Valkey
open Text

variable {nodes : List NodeState} {p : NodeState}

/-- Every slot has exactly one owner among the primaries, which own nothing else. -/
structure ExactPartition (nodes : List NodeState) : Prop where
  exclusive : Exclusive (primaries nodes)
  covers : ∀ slot, Owned (primaries nodes) slot ↔ 0 ≤ slot ∧ slot ≤ maxSlot

/-! ## Targets -/

/-- How many primaries come before an address. -/
def rank (nodes : List NodeState) (addr : Str) : Nat :=
  ((primaries nodes).map (·.addr)).countP fun a => decide (a < addr)

/-- The target of a primary: the one at its place in address order. -/
def target (nodes : List NodeState) (p : NodeState) : Int :=
  (targetSlotsPerShard (primaries nodes).length).getD (rank nodes p.addr) 0

theorem targetSlotsPerShard_length {n : Int} (h : 0 < n) :
    (targetSlotsPerShard n).length = n.toNat := by
  unfold targetSlotsPerShard
  rw [if_neg (by omega)]
  simp

theorem le_of_mem_targetSlotsPerShard {n t : Int} (h : t ∈ targetSlotsPerShard n) :
    totalSlots / n ≤ t := by
  unfold targetSlotsPerShard at h
  split at h
  · cases h
  · obtain ⟨i, -, rfl⟩ := List.mem_map.mp h
    split <;> omega

theorem effectiveShards_perm (S : Sorter NodeState) (h : ToldApart nodes) :
    (effectiveShards S (newClusterState nodes)).Perm (primaries nodes) := by
  refine (S.perm _ _).trans ?_
  rw [(newClusterState_groups nodes).2, List.filter_filter]
  refine (h.shards_primary_perm.append_right _).trans ?_
  refine (List.perm_ext_iff_of_nodup ?_ (h.nodup.filter _)).mpr fun p => ?_
  · refine List.nodup_append.mpr ⟨h.nodup.filter _, h.nodup.filter _, fun a ha b hb => ?_⟩
    rintro rfl
    have howns := (List.mem_filter.mp ha).2
    have hpending := (List.mem_filter.mp hb).2
    simp [NodeState.ownsSlots_eq] at howns hpending
    simp [howns.2] at hpending
  · simp only [List.mem_append, List.mem_filter, NodeState.ownsSlots_eq]
    cases p.isPrimary <;> cases p.isPending <;> simp

theorem effectiveShards_ascending (S : Sorter NodeState) (h : ToldApart nodes) :
    (effectiveShards S (newClusterState nodes)).Pairwise fun a b => a.addr < b.addr := by
  have hsorted := S.sorted compareByAddr (compares_compareStr _)
    ((newClusterState nodes).shards.filterMap ShardState.primary ++
      (newClusterState nodes).pendingNodes.filter NodeState.isPrimary)
  have hnodup : ((effectiveShards S (newClusterState nodes)).map (·.addr)).Nodup :=
    ((effectiveShards_perm S h).map _).nodup_iff.mpr h.addrs
  refine hsorted.imp₂ ?_ (List.pairwise_map.mp hnodup)
  intro a b hle hne
  unfold compareByAddr compareStr at hle
  split at hle
  · assumption
  · split at hle
    · omega
    · exact absurd (le_antisymm (not_lt.mp ‹_›) (not_lt.mp ‹_›)) hne

theorem zip_targets (S : Sorter NodeState) (h : ToldApart nodes) :
    (effectiveShards S (newClusterState nodes)).zip
        (targetSlotsPerShard (primaries nodes).length) =
      (effectiveShards S (newClusterState nodes)).map fun p => (p, target nodes p) := by
  have hperm := effectiveShards_perm S h
  have hrank : ∀ i p, (effectiveShards S (newClusterState nodes))[i]? = some p →
      rank nodes p.addr = i := by
    intro i p hp
    rw [rank, (hperm.map (·.addr)).symm.countP_eq, List.countP_map]
    refine countP_of_ascending NodeState.addr (effectiveShards_ascending S h) hp fun q => ?_
    exact decide_eq_true_iff
  have hlen : (effectiveShards S (newClusterState nodes)).length =
      (targetSlotsPerShard (primaries nodes).length).length := by
    rw [hperm.length_eq]
    by_cases hzero : (primaries nodes).length = 0
    · rw [hzero]
      rfl
    · rw [targetSlotsPerShard_length (by omega), Int.toNat_natCast]
  refine List.ext_getElem (by simp [hlen]) fun i hi _ => ?_
  rw [List.length_zip, ← hlen, min_self] at hi
  rw [List.getElem_zip, List.getElem_map, target, hrank i _ (List.getElem?_eq_getElem hi),
    List.getD_eq_getElem?_getD, List.getElem?_eq_getElem (hlen ▸ hi), Option.getD_some]

/-! ## What the planner plans -/

def isOver (nodes : List NodeState) (p : NodeState) : Bool :=
  p.numSlots - target nodes p > rebalanceTolerance

def isUnder (nodes : List NodeState) (p : NodeState) : Bool :=
  target nodes p - p.numSlots > rebalanceTolerance

theorem isOver_iff : isOver nodes p = true ↔ 1 < p.numSlots - target nodes p := decide_eq_true_iff

theorem isUnder_iff : isUnder nodes p = true ↔ 1 < target nodes p - p.numSlots := decide_eq_true_iff

/-- The slots to move from one primary to another. -/
def moveCount (nodes : List NodeState) (src dst : NodeState) : Int :=
  min (src.numSlots - target nodes src) (min (target nodes dst - dst.numSlots) batchSize)

/-- The planner moves a batch from a primary beyond its target to one below it. -/
theorem planRebalanceMove_eq (S : Sorter NodeState) (h : ToldApart nodes) (shards : Int) :
    planRebalanceMove S (newClusterState nodes) shards =
      if shards ≤ 0 ∨ ((primaries nodes).length : Int) ≠ shards then none
      else
        match (effectiveShards S (newClusterState nodes)).find? (isOver nodes),
            (effectiveShards S (newClusterState nodes)).find? (isUnder nodes) with
        | some src, some dst =>
          some ⟨src.id, dst.id, batchOf src.slots (moveCount nodes src dst)⟩
        | _, _ => none := by
  unfold planRebalanceMove
  dsimp only
  rw [(effectiveShards_perm S h).length_eq]
  by_cases hpos : shards ≤ 0
  · rw [if_pos hpos, if_pos (.inl hpos)]
  by_cases hcount : ((primaries nodes).length : Int) ≠ shards
  · rw [if_neg hpos, if_pos hcount, if_pos (.inr hcount)]
  rw [if_neg hpos, if_neg hcount, if_neg (by tauto)]
  rw [not_not] at hcount
  subst hcount
  rw [zip_targets S h, List.find?_map, List.find?_map]
  have hover : ((fun a : NodeState × Int => decide (a.1.numSlots - a.2 > rebalanceTolerance)) ∘
      fun p => (p, target nodes p)) = isOver nodes := rfl
  have hunder : ((fun a : NodeState × Int => decide (a.2 - a.1.numSlots > rebalanceTolerance)) ∘
      fun p => (p, target nodes p)) = isUnder nodes := rfl
  rw [hover, hunder]
  cases (effectiveShards S (newClusterState nodes)).find? (isOver nodes) <;>
    cases (effectiveShards S (newClusterState nodes)).find? (isUnder nodes) <;> rfl

theorem target_nonneg (nodes : List NodeState) (p : NodeState) : 0 ≤ target nodes p := by
  unfold target
  rw [List.getD_eq_getElem?_getD]
  cases h : (targetSlotsPerShard (primaries nodes).length)[rank nodes p.addr]? with
  | none => exact le_refl _
  | some t =>
    have hshare : 0 ≤ totalSlots / ((primaries nodes).length : Int) :=
      Int.ediv_nonneg (by decide) (Int.natCast_nonneg _)
    exact le_trans hshare (le_of_mem_targetSlotsPerShard (List.mem_of_getElem? h))

/-- What a planned move is: a batch from a primary that stays at its target or
above to one that stays at its target or below. -/
structure Planned (nodes : List NodeState) (m : Move) (src dst : NodeState) : Prop where
  src_mem : src ∈ primaries nodes
  dst_mem : dst ∈ primaries nodes
  between : m.Between src dst
  positive : 1 ≤ m.numSlots
  capped : m.numSlots ≤ batchSize
  src_stays : target nodes src ≤ src.numSlots - m.numSlots
  dst_stays : dst.numSlots + m.numSlots ≤ target nodes dst

theorem planRebalanceMove_planned {S : Sorter NodeState} {shards : Int} {m : Move}
    (h : ToldApart nodes) (hexclusive : Exclusive (primaries nodes))
    (hm : planRebalanceMove S (newClusterState nodes) shards = some m) :
    ∃ src dst, Planned nodes m src dst := by
  rw [planRebalanceMove_eq S h] at hm
  split at hm
  · cases hm
  split at hm
  · rename_i src dst hsrc hdst
    cases hm
    have hover := isOver_iff.mp (List.find?_some hsrc)
    have hunder := isUnder_iff.mp (List.find?_some hdst)
    have hsrcmem := (effectiveShards_perm S h).mem_iff.mp (List.mem_of_find?_eq_some hsrc)
    have hdstmem := (effectiveShards_perm S h).mem_iff.mp (List.mem_of_find?_eq_some hdst)
    have hne : src.id ≠ dst.id := by
      intro hid
      rw [h.eq_of_id (mem_primaries.mp hsrcmem).1 (mem_primaries.mp hdstmem).1 hid] at hover
      omega
    have hcount : countSlots (batchOf src.slots (moveCount nodes src dst)) =
        moveCount nodes src dst := by
      have hnonneg := target_nonneg nodes src
      refine countSlots_batchOf (hexclusive.ordered src hsrcmem) ?_ ?_
      · unfold moveCount batchSize
        omega
      · unfold moveCount
        change _ ≤ src.numSlots
        omega
    refine ⟨src, dst, hsrcmem, hdstmem, hexclusive.between hsrcmem hdstmem hne _, ?_, ?_, ?_, ?_⟩
    all_goals
      dsimp only [Move.numSlots]
      rw [hcount]
      unfold moveCount batchSize
      omega
  · cases hm

/-! ## One move -/

section Applied

variable {nodes : List NodeState} {m : Move} {f : NodeState → NodeState}

theorem primaries_map_carried (hf : ∀ n ∈ nodes, m.Carried n (f n)) :
    primaries (nodes.map f) = (primaries nodes).map f :=
  primaries_map fun n hn => (hf n hn).isPrimary

theorem carried_primaries (hf : ∀ n ∈ nodes, m.Carried n (f n)) :
    ∀ p ∈ primaries nodes, m.Carried p (f p) :=
  fun p hp => hf p (mem_primaries.mp hp).1

theorem target_map (hf : ∀ n ∈ nodes, m.Carried n (f n)) (hp : p ∈ nodes) :
    target (nodes.map f) (f p) = target nodes p := by
  have haddrs : ((primaries nodes).map f).map (·.addr) = (primaries nodes).map (·.addr) := by
    rw [List.map_map]
    exact List.map_congr_left fun q hq => (carried_primaries hf q hq).addr
  unfold target rank
  rw [primaries_map_carried hf, haddrs, List.length_map, (hf p hp).addr]

theorem ToldApart.map (h : ToldApart nodes) (hf : ∀ n ∈ nodes, m.Carried n (f n)) :
    ToldApart (nodes.map f) := by
  refine ⟨h.toDistinct.map (fun n hn => (hf n hn).isPrimary) (fun n hn => (hf n hn).id)
    (fun n hn => (hf n hn).addr) fun n hn => (hf n hn).shardID, ?_⟩
  intro b hb hreplica
  obtain ⟨a, ha, rfl⟩ := List.mem_map.mp hb
  rw [(hf a ha).id]
  refine h.named a ha ?_
  rwa [NodeState.isReplica_eq_not_isPrimary, (hf a ha).isPrimary,
    ← NodeState.isReplica_eq_not_isPrimary] at hreplica

variable {src dst : NodeState}

theorem Planned.partition (hm : Planned nodes m src dst) (happart : ToldApart nodes)
    (hpart : ExactPartition nodes) (hf : ∀ n ∈ nodes, m.Carried n (f n)) :
    ExactPartition (nodes.map f) := by
  have hids : ∀ p ∈ primaries nodes, ∀ q ∈ primaries nodes, p.id = q.id → p = q :=
    fun p hp q hq => happart.eq_of_id (mem_primaries.mp hp).1 (mem_primaries.mp hq).1
  refine ⟨?_, fun slot => ?_⟩
  · rw [primaries_map_carried hf]
    exact hpart.exclusive.map hids hm.between hm.src_mem (carried_primaries hf)
  · rw [primaries_map_carried hf, hm.between.owned_map hm.src_mem hm.dst_mem (carried_primaries hf)]
    exact hpart.covers slot

theorem Planned.numSlots (hm : Planned nodes m src dst) (happart : ToldApart nodes)
    (hexclusive : Exclusive (primaries nodes)) (hf : ∀ n ∈ nodes, m.Carried n (f n))
    (hp : p ∈ primaries nodes) :
    (p = src ∧ (f p).numSlots + m.numSlots = p.numSlots) ∨
      (p = dst ∧ (f p).numSlots = p.numSlots + m.numSlots) ∨
      (p.id ≠ m.srcID ∧ p.id ≠ m.dstID ∧ (f p).numSlots = p.numSlots) := by
  have hordered := hexclusive.ordered p hp
  have hnodup := hexclusive.nodup p hp
  have hcarried := carried_primaries hf p hp
  have heq : ∀ q ∈ primaries nodes, p.id = q.id → p = q := fun q hq =>
    happart.eq_of_id (mem_primaries.mp hp).1 (mem_primaries.mp hq).1
  by_cases hsrc : p.id = m.srcID
  · have hps := heq src hm.src_mem (hsrc.trans hm.between.srcID)
    subst hps
    exact .inl ⟨rfl, hm.between.numSlots_src hcarried hordered hnodup⟩
  by_cases hdst : p.id = m.dstID
  · have hpd := heq dst hm.dst_mem (hdst.trans hm.between.dstID)
    subst hpd
    exact .inr (.inl ⟨rfl, hm.between.numSlots_dst hcarried hordered hnodup⟩)
  · exact .inr (.inr ⟨hsrc, hdst, hcarried.numSlots_other hordered hnodup hsrc hdst⟩)

end Applied

/-! ## Runs -/

/-- Moves asked for and carried out one after the other. -/
inductive RebalanceRun (S : Sorter NodeState) (shards : Int) (start : List NodeState) :
    List Move → List NodeState → Prop where
  | start : RebalanceRun S shards start [] start
  | move {moves : List Move} {nodes nodes' : List NodeState} {m : Move}
      (run : RebalanceRun S shards start moves nodes)
      (planned : planRebalanceMove S (newClusterState nodes) shards = some m)
      (applied : m.Applied nodes nodes') : RebalanceRun S shards start (moves ++ [m]) nodes'

/-- The slots above target, over all primaries. -/
def surplus (nodes : List NodeState) : Nat :=
  ((primaries nodes).map fun p => (p.numSlots - target nodes p).toNat).sum

/-- The primary with this ID owns its target or more. -/
def Above (nodes : List NodeState) (id : Str) : Prop :=
  ∀ p ∈ primaries nodes, p.id = id → target nodes p ≤ p.numSlots

/-- The primary with this ID owns its target or less. -/
def Below (nodes : List NodeState) (id : Str) : Prop :=
  ∀ p ∈ primaries nodes, p.id = id → p.numSlots ≤ target nodes p

section Step

variable {nodes nodes' : List NodeState} {m : Move} {src dst : NodeState}

/-- Every move takes slots off the surplus. -/
theorem Planned.surplus_lt (hm : Planned nodes m src dst) (happart : ToldApart nodes)
    (hexclusive : Exclusive (primaries nodes)) (happlied : m.Applied nodes nodes') :
    surplus nodes' < surplus nodes := by
  obtain ⟨f, rfl, hf⟩ := happlied
  have hterms : surplus (nodes.map f) =
      ((primaries nodes).map fun p => ((f p).numSlots - target nodes p).toNat).sum := by
    unfold surplus
    rw [primaries_map_carried hf, List.map_map]
    congr 1
    refine List.map_congr_left fun p hp => ?_
    rw [Function.comp_apply, target_map hf (mem_primaries.mp hp).1]
  rw [hterms]
  have hpositive := hm.positive
  have hsrc := hm.src_stays
  have hdst := hm.dst_stays
  refine List.sum_lt_sum _ _ (fun p hp => ?_) ⟨src, hm.src_mem, ?_⟩
  · rcases hm.numSlots happart hexclusive hf hp with ⟨-, hn⟩ | ⟨rfl, hn⟩ | ⟨-, -, hn⟩ <;> omega
  · rcases hm.numSlots happart hexclusive hf hm.src_mem with ⟨-, hn⟩ | ⟨rfl, -⟩ | ⟨hne, -⟩
    · omega
    · exact absurd rfl hm.between.ne
    · exact absurd hm.between.srcID.symm hne

/-- A move leads nobody across the target: the source stays above, the destination
below, and all others where they are. -/
theorem Planned.sides (hm : Planned nodes m src dst) (happart : ToldApart nodes)
    (hexclusive : Exclusive (primaries nodes)) {f : NodeState → NodeState}
    (hf : ∀ n ∈ nodes, m.Carried n (f n)) (hp : p ∈ primaries nodes) :
    (p.id = m.srcID ∨ target nodes p ≤ p.numSlots → target nodes p ≤ (f p).numSlots) ∧
      (p.id = m.dstID ∨ p.numSlots ≤ target nodes p → (f p).numSlots ≤ target nodes p) := by
  have hsrc := hm.src_stays
  have hdst := hm.dst_stays
  have hpositive := hm.positive
  rcases hm.numSlots happart hexclusive hf hp with ⟨rfl, hn⟩ | ⟨rfl, hn⟩ | ⟨hns, hnd, hn⟩
  · refine ⟨fun _ => by omega, fun h => ?_⟩
    rcases h with h | h
    · exact absurd (h.trans hm.between.dstID) hm.between.ne
    · omega
  · refine ⟨fun h => ?_, fun _ => by omega⟩
    rcases h with h | h
    · exact absurd (hm.between.srcID.symm.trans h.symm) hm.between.ne
    · omega
  · rw [hn]
    exact ⟨fun h => h.resolve_left hns, fun h => h.resolve_left hnd⟩

/-- A primary after the moves is one from before, with its ID and its target. -/
theorem mem_primaries_carried {f : NodeState → NodeState} (hf : ∀ n ∈ nodes, m.Carried n (f n))
    (hp : p ∈ primaries (nodes.map f)) :
    ∃ a ∈ primaries nodes, p = f a ∧ p.id = a.id ∧ target (nodes.map f) p = target nodes a := by
  rw [primaries_map_carried hf] at hp
  obtain ⟨a, ha, rfl⟩ := List.mem_map.mp hp
  exact ⟨a, ha, rfl, (carried_primaries hf a ha).id, target_map hf (mem_primaries.mp ha).1⟩

theorem Planned.above (hm : Planned nodes m src dst) (happart : ToldApart nodes)
    (hexclusive : Exclusive (primaries nodes)) (happlied : m.Applied nodes nodes') {id : Str}
    (hid : id = m.srcID ∨ Above nodes id) : Above nodes' id := by
  obtain ⟨f, rfl, hf⟩ := happlied
  intro p hp hpid
  obtain ⟨a, ha, rfl, hsame, htarget⟩ := mem_primaries_carried hf hp
  rw [hsame] at hpid
  rw [htarget]
  exact (hm.sides happart hexclusive hf ha).1 (hid.imp hpid.trans fun h => h a ha hpid)

theorem Planned.below (hm : Planned nodes m src dst) (happart : ToldApart nodes)
    (hexclusive : Exclusive (primaries nodes)) (happlied : m.Applied nodes nodes') {id : Str}
    (hid : id = m.dstID ∨ Below nodes id) : Below nodes' id := by
  obtain ⟨f, rfl, hf⟩ := happlied
  intro p hp hpid
  obtain ⟨a, ha, rfl, hsame, htarget⟩ := mem_primaries_carried hf hp
  rw [hsame] at hpid
  rw [htarget]
  exact (hm.sides happart hexclusive hf ha).2 (hid.imp hpid.trans fun h => h a ha hpid)

end Step

/-- What holds along a run. -/
structure RunFacts (start : List NodeState) (moves : List Move) (nodes : List NodeState) :
    Prop where
  apart : ToldApart nodes
  partition : ExactPartition nodes
  sources : ∀ m ∈ moves, Above nodes m.srcID
  destinations : ∀ m ∈ moves, Below nodes m.dstID
  roles : ∀ m ∈ moves, ∀ m' ∈ moves, m.srcID ≠ m'.dstID
  bound : moves.length + surplus nodes ≤ surplus start

theorem RunFacts.move {start nodes' : List NodeState} {moves : List Move} {m : Move}
    {src dst : NodeState} (h : RunFacts start moves nodes) (hm : Planned nodes m src dst)
    (happlied : m.Applied nodes nodes') : RunFacts start (moves ++ [m]) nodes' := by
  have hexclusive := h.partition.exclusive
  have hsrc := hm.src_stays
  have hdst := hm.dst_stays
  have hpositive := hm.positive
  refine ⟨?_, ?_, ?_, ?_, ?_, ?_⟩
  · obtain ⟨f, rfl, hf⟩ := happlied
    exact h.apart.map hf
  · obtain ⟨f, rfl, hf⟩ := happlied
    exact hm.partition h.apart h.partition hf
  · intro k hk
    rcases List.mem_append.mp hk with hk | hk
    · exact hm.above h.apart hexclusive happlied (.inr (h.sources k hk))
    · rw [List.mem_singleton.mp hk]
      exact hm.above h.apart hexclusive happlied (.inl rfl)
  · intro k hk
    rcases List.mem_append.mp hk with hk | hk
    · exact hm.below h.apart hexclusive happlied (.inr (h.destinations k hk))
    · rw [List.mem_singleton.mp hk]
      exact hm.below h.apart hexclusive happlied (.inl rfl)
  · intro k hk l hl
    rcases List.mem_append.mp hk with hk | hk <;> rcases List.mem_append.mp hl with hl | hl
    · exact h.roles k hk l hl
    · -- the new destination lies below its target, an earlier source does not
      rw [List.mem_singleton.mp hl]
      intro hid
      have := h.sources k hk dst hm.dst_mem (hm.between.dstID.symm.trans hid.symm)
      omega
    · rw [List.mem_singleton.mp hk]
      intro hid
      have := h.destinations l hl src hm.src_mem (hm.between.srcID.symm.trans hid)
      omega
    · rw [List.mem_singleton.mp hk, List.mem_singleton.mp hl, hm.between.srcID, hm.between.dstID]
      exact hm.between.ne
  · have := hm.surplus_lt h.apart hexclusive happlied
    have := h.bound
    rw [List.length_append, List.length_singleton]
    omega

theorem RebalanceRun.facts {S : Sorter NodeState} {shards : Int} {start : List NodeState}
    {moves : List Move} (hrun : RebalanceRun S shards start moves nodes)
    (happart : ToldApart start) (hpart : ExactPartition start) : RunFacts start moves nodes := by
  induction hrun with
  | start =>
    exact ⟨happart, hpart, fun _ hm => (nomatch hm), fun _ hm => (nomatch hm),
      fun _ hm => (nomatch hm), by simp⟩
  | move _ hplanned happlied ih =>
    obtain ⟨src, dst, hm⟩ := planRebalanceMove_planned ih.apart ih.partition.exclusive hplanned
    exact ih.move hm happlied

/-- Rebalancing an exact partition keeps it exact all along. Each move takes 1 to
400 slots of its source, leaves the source at its target or above and the
destination at its target or below; no primary is a source and a destination of
one run, and no run makes more moves than there are slots above target. -/
theorem rebalance_run_exact (S : Sorter NodeState) (shards : Int) {start nodes : List NodeState}
    {moves : List Move} (happart : ToldApart start) (hpart : ExactPartition start)
    (hrun : RebalanceRun S shards start moves nodes) :
    ExactPartition nodes ∧
    (∀ m, planRebalanceMove S (newClusterState nodes) shards = some m →
      (∃ src ∈ primaries nodes, src.id = m.srcID ∧ 1 ≤ m.numSlots ∧ m.numSlots ≤ 400 ∧
        ∀ slot, Covers m.ranges slot → Covers src.slots slot) ∧
      (∃ nodes', m.Applied nodes nodes') ∧
      ∀ nodes', m.Applied nodes nodes' → Above nodes' m.srcID ∧ Below nodes' m.dstID) ∧
    (∀ m ∈ moves, ∀ m' ∈ moves, m.srcID ≠ m'.dstID) ∧
    moves.length ≤ surplus start := by
  have facts := hrun.facts happart hpart
  refine ⟨facts.partition, fun m hplanned => ?_, facts.roles, by have := facts.bound; omega⟩
  obtain ⟨src, dst, hm⟩ :=
    planRebalanceMove_planned facts.apart facts.partition.exclusive hplanned
  refine ⟨⟨src, hm.src_mem, hm.between.srcID.symm, hm.positive, hm.capped, hm.between.owned⟩,
    m.exists_applied nodes, fun nodes' happlied => ⟨?_, ?_⟩⟩
  · exact hm.above facts.apart facts.partition.exclusive happlied (.inl rfl)
  · exact hm.below facts.apart facts.partition.exclusive happlied (.inl rfl)

/-- Two joined primaries, one of which owns all slots. -/
def lopsided : List NodeState :=
  [{ id := "a1", shardID := "s1", addr := "10.0.0.1:6379", role := .primary
     slots := [⟨0, 16383⟩] },
   { id := "b2", shardID := "s2", addr := "10.0.0.2:6379", role := .primary }]

theorem toldApart_lopsided : ToldApart lopsided :=
  ⟨⟨by decide, by decide, by decide⟩, by decide⟩

theorem exactPartition_lopsided : ExactPartition lopsided := by
  refine ⟨⟨by decide, ?_, ?_⟩, fun slot => ?_⟩
  · intro p hp
    have hapart : Apart p.slots := by
      rcases List.mem_pair.mp (show p ∈ lopsided from hp) with rfl | rfl
      · exact List.pairwise_singleton _ _
      · exact List.Pairwise.nil
    exact (pairwise_expand hapart).imp fun hlt heq => absurd heq (ne_of_lt hlt)
  · intro p hp q hq slot hpslot hqslot
    rcases List.mem_pair.mp (show p ∈ lopsided from hp) with rfl | rfl <;>
      rcases List.mem_pair.mp (show q ∈ lopsided from hq) with rfl | rfl
    · rfl
    · obtain ⟨r, hr, -⟩ := hqslot
      cases hr
    · obtain ⟨r, hr, -⟩ := hpslot
      cases hr
    · rfl
  · change (∃ p ∈ lopsided, Covers p.slots slot) ↔ _
    simp [lopsided, Covers, maxSlot, totalSlots]

theorem rebalance_run_exact_lopsided :
    ∃ m nodes, RebalanceRun .insertion 2 lopsided [m] nodes ∧ ExactPartition nodes ∧
      m.srcID ≠ m.dstID ∧ 1 ≤ surplus lopsided := by
  have hsome : (planRebalanceMove .insertion (newClusterState lopsided) 2).isSome = true := by
    decide
  obtain ⟨m, hm⟩ := Option.isSome_iff_exists.mp hsome
  obtain ⟨nodes, happlied⟩ := m.exists_applied lopsided
  have hrun : RebalanceRun .insertion 2 lopsided [m] nodes := .move .start hm happlied
  have h := rebalance_run_exact .insertion 2 toldApart_lopsided exactPartition_lopsided hrun
  exact ⟨m, nodes, hrun, h.1, h.2.2.1 m (by simp) m (by simp), h.2.2.2⟩

/-! ## Where the planner stops -/

/-- The effective primaries with their targets. -/
def allocations (S : Sorter NodeState) (s : ClusterState) : List (NodeState × Int) :=
  (effectiveShards S s).zip (targetSlotsPerShard (effectiveShards S s).length)

/-- The planner stops as soon as nobody is too far above target, or nobody too far
below. -/
theorem planRebalanceMove_eq_none_iff (S : Sorter NodeState) (s : ClusterState) :
    planRebalanceMove S s (effectiveShards S s).length = none ↔
      (∀ a ∈ allocations S s, a.1.numSlots - a.2 ≤ 1) ∨
        ∀ a ∈ allocations S s, a.2 - a.1.numSlots ≤ 1 := by
  unfold planRebalanceMove
  dsimp only
  have hallocs : (effectiveShards S s).zip (targetSlotsPerShard (effectiveShards S s).length) =
      allocations S s := rfl
  rw [if_neg (not_not.mpr rfl), hallocs]
  split
  · rename_i hempty
    have hnil : allocations S s = [] := by
      unfold allocations targetSlotsPerShard
      rw [if_pos hempty, List.zip_nil_right]
    simp [hnil]
  · split
    · rename_i src dst hsrc hdst
      have hover := List.find?_some hsrc
      have hunder := List.find?_some hdst
      rw [decide_eq_true_eq] at hover hunder
      simp only [reduceCtorEq, false_iff, not_or, not_forall]
      refine ⟨⟨src, List.mem_of_find?_eq_some hsrc, ?_⟩, dst, List.mem_of_find?_eq_some hdst, ?_⟩
      · unfold rebalanceTolerance at hover
        omega
      · unfold rebalanceTolerance at hunder
        omega
    · rename_i hnone
      simp only [true_iff]
      cases hover : (allocations S s).find? fun a => a.1.numSlots - a.2 > rebalanceTolerance with
      | none => exact .inl fun a ha => by simpa [rebalanceTolerance] using List.find?_eq_none.mp hover a ha
      | some src =>
        cases hunder : (allocations S s).find? fun a => a.2 - a.1.numSlots > rebalanceTolerance with
        | none => exact .inr fun a ha => by simpa [rebalanceTolerance] using List.find?_eq_none.mp hunder a ha
        | some dst => exact absurd hunder (hnone src dst hover)

/-- The planner stops only when every primary is within one slot of its target
exactly when a primary that owns two slots too many meets one that owns two too
few, or there is neither. -/
theorem rebalance_stops_balanced_iff (S : Sorter NodeState) (s : ClusterState) :
    (planRebalanceMove S s (effectiveShards S s).length = none →
      ∀ a ∈ allocations S s, (a.1.numSlots ≤ a.2 + 1 ∧ a.2 ≤ a.1.numSlots + 1) ∧
        (2 ≤ a.2 → 1 ≤ a.1.numSlots)) ↔
    ((∃ a ∈ allocations S s, a.2 + 2 ≤ a.1.numSlots) ↔
      ∃ a ∈ allocations S s, a.1.numSlots + 2 ≤ a.2) := by
  rw [planRebalanceMove_eq_none_iff]
  constructor
  · intro h
    by_contra hdiff
    have hstop : (∀ a ∈ allocations S s, a.1.numSlots - a.2 ≤ 1) ∨
        ∀ a ∈ allocations S s, a.2 - a.1.numSlots ≤ 1 := by
      by_cases hover : ∃ a ∈ allocations S s, a.2 + 2 ≤ a.1.numSlots
      · refine .inr fun a ha => ?_
        have : ¬ (a.1.numSlots + 2 ≤ a.2) := fun hu =>
          hdiff ⟨fun _ => ⟨a, ha, hu⟩, fun _ => hover⟩
        omega
      · refine .inl fun a ha => ?_
        have : ¬ (a.2 + 2 ≤ a.1.numSlots) := fun ho => hover ⟨a, ha, ho⟩
        omega
    have hall := h hstop
    refine hdiff ⟨fun hover => ?_, fun hunder => ?_⟩
    · obtain ⟨a, ha, ho⟩ := hover
      have := (hall a ha).1
      omega
    · obtain ⟨a, ha, hu⟩ := hunder
      have := (hall a ha).1
      omega
  · intro hboth hstop a ha
    have hneither : ¬ (∃ a ∈ allocations S s, a.2 + 2 ≤ a.1.numSlots) ∧
        ¬ ∃ a ∈ allocations S s, a.1.numSlots + 2 ≤ a.2 := by
      rcases hstop with hstop | hstop
      · have hover : ¬ ∃ a ∈ allocations S s, a.2 + 2 ≤ a.1.numSlots := by
          rintro ⟨b, hb, ho⟩
          have := hstop b hb
          omega
        exact ⟨hover, fun hu => hover (hboth.mpr hu)⟩
      · have hunder : ¬ ∃ a ∈ allocations S s, a.1.numSlots + 2 ≤ a.2 := by
          rintro ⟨b, hb, hu⟩
          have := hstop b hb
          omega
        exact ⟨fun ho => hunder (hboth.mp ho), hunder⟩
    have ho : ¬ (a.2 + 2 ≤ a.1.numSlots) := fun ho => hneither.1 ⟨a, ha, ho⟩
    have hu : ¬ (a.1.numSlots + 2 ≤ a.2) := fun hu => hneither.2 ⟨a, ha, hu⟩
    omega

/-- The `i`-th of 129 primaries: the first 128 share the slots evenly, the last one
has just joined. -/
def crowdedNode (i : Nat) : NodeState :=
  { id := itoa i, shardID := itoa i, addr := "10.0.0." ++ itoa i, role := .primary
    slots := if i < 128 then [⟨128 * i, 128 * i + 127⟩] else [] }

def crowded : List NodeState := (List.range 129).map crowdedNode

theorem mem_crowded : p ∈ crowded ↔ ∃ i < 129, p = crowdedNode i := by
  simp [crowded, eq_comm]

theorem primaries_crowded : primaries crowded = crowded := by
  refine List.filter_eq_self.mpr fun p hp => ?_
  obtain ⟨i, -, rfl⟩ := mem_crowded.mp hp
  rfl

theorem covers_crowdedNode {i : Nat} {slot : Int} :
    Covers (crowdedNode i).slots slot ↔ i < 128 ∧ 128 * (i : Int) ≤ slot ∧ slot ≤ 128 * i + 127 := by
  unfold crowdedNode
  split <;> simp [Covers, *]

theorem numSlots_crowdedNode_le (i : Nat) : (crowdedNode i).numSlots ≤ 128 := by
  unfold crowdedNode NodeState.numSlots
  split <;> simp [countSlots, SlotRange.count]

theorem toldApart_crowded : ToldApart crowded := by
  have hitoa : ((List.range 129).map fun i : Nat => itoa i).Nodup :=
    List.nodup_range.map fun i j h => Int.ofNat.inj (itoa_injective h)
  have haddr : ((List.range 129).map fun i : Nat => "10.0.0." ++ itoa i).Nodup :=
    List.nodup_range.map fun i j h => Int.ofNat.inj (itoa_injective (List.append_cancel_left h))
  refine ⟨⟨?_, ?_, ?_⟩, ?_⟩
  · rw [crowded, List.map_map]
    exact hitoa
  · rw [primaries_crowded, crowded, List.map_map]
    exact haddr
  · rw [primaries_crowded, crowded, List.map_map]
    exact hitoa
  · intro n hn hreplica
    obtain ⟨i, -, rfl⟩ := mem_crowded.mp hn
    cases hreplica

theorem exactPartition_crowded : ExactPartition crowded := by
  have hapart : ∀ i, Apart (crowdedNode i).slots := by
    intro i
    unfold crowdedNode
    split
    · exact List.pairwise_singleton _ _
    · exact List.Pairwise.nil
  suffices Exclusive crowded ∧ ∀ slot, Owned crowded slot ↔ 0 ≤ slot ∧ slot ≤ maxSlot by
    rw [← primaries_crowded] at this
    exact ⟨this.1, this.2⟩
  refine ⟨⟨?_, ?_, ?_⟩, fun slot => ?_⟩
  · intro p hp r hr
    obtain ⟨i, -, rfl⟩ := mem_crowded.mp hp
    unfold crowdedNode at hr
    split at hr
    · rw [List.mem_singleton.mp hr]
      dsimp only
      omega
    · cases hr
  · intro p hp
    obtain ⟨i, -, rfl⟩ := mem_crowded.mp hp
    exact (pairwise_expand (hapart i)).imp fun hlt heq => absurd heq (ne_of_lt hlt)
  · intro p hp q hq slot hpslot hqslot
    obtain ⟨i, -, rfl⟩ := mem_crowded.mp hp
    obtain ⟨j, -, rfl⟩ := mem_crowded.mp hq
    rw [covers_crowdedNode] at hpslot hqslot
    rw [show i = j by omega]
  · unfold Owned maxSlot totalSlots
    constructor
    · intro h
      obtain ⟨p, hp, hcovers⟩ := h
      obtain ⟨i, -, rfl⟩ := mem_crowded.mp hp
      rw [covers_crowdedNode] at hcovers
      omega
    · intro h
      refine ⟨crowdedNode (slot / 128).toNat, mem_crowded.mpr ⟨_, by omega, rfl⟩, ?_⟩
      rw [covers_crowdedNode]
      omega

/-- The planner stops although one of 129 primaries owns no slot: each of the
others is at most one slot above its target. -/
theorem rebalance_starves_newcomer :
    ToldApart crowded ∧ ExactPartition crowded ∧
      (effectiveShards .insertion (newClusterState crowded)).length = 129 ∧
      planRebalanceMove .insertion (newClusterState crowded) 129 = none ∧
      ∃ a ∈ allocations .insertion (newClusterState crowded), 127 ≤ a.2 ∧ a.1.numSlots = 0 := by
  have hperm := effectiveShards_perm .insertion toldApart_crowded
  rw [primaries_crowded] at hperm
  have hlen : (effectiveShards .insertion (newClusterState crowded)).length = 129 := by
    rw [hperm.length_eq]
    rfl
  have hallocs : ∀ a ∈ allocations .insertion (newClusterState crowded),
      127 ≤ a.2 ∧ a.1.numSlots ≤ 128 := by
    intro a ha
    unfold allocations at ha
    rw [hlen] at ha
    obtain ⟨hp, ht⟩ := List.of_mem_zip ha
    obtain ⟨i, -, hi⟩ := mem_crowded.mp (hperm.mem_iff.mp hp)
    rw [hi]
    exact ⟨le_of_mem_targetSlotsPerShard ht, numSlots_crowdedNode_le i⟩
  refine ⟨toldApart_crowded, exactPartition_crowded, hlen, ?_, ?_⟩
  · have hnone := (planRebalanceMove_eq_none_iff .insertion (newClusterState crowded)).mpr
      (.inl fun a ha => by have := hallocs a ha; omega)
    rwa [hlen] at hnone
  · have hmem := hperm.mem_iff.mpr (mem_crowded.mpr ⟨128, by omega, rfl⟩)
    obtain ⟨i, hi⟩ := List.mem_iff_getElem?.mp hmem
    have htarget : ∃ t, (targetSlotsPerShard 129)[i]? = some t := by
      refine ⟨_, List.getElem?_eq_getElem ?_⟩
      have := (List.getElem?_eq_some_iff.mp hi).1
      rwa [hlen] at this
    obtain ⟨t, ht⟩ := htarget
    have ha : (crowdedNode 128, t) ∈ allocations .insertion (newClusterState crowded) := by
      refine List.mem_iff_getElem?.mpr ⟨i, ?_⟩
      unfold allocations
      rw [hlen]
      exact List.getElem?_zip_eq_some.mpr ⟨hi, ht⟩
    exact ⟨_, ha, (hallocs _ ha).1, rfl⟩

end ValkeyOperator.Valkey

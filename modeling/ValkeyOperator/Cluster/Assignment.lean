import ValkeyOperator.Cluster.Bootstrap
import ValkeyOperator.Valkey.Moves

/-! Runs of bootstrap passes.

All nodes are scraped, so the slots no shard owns are the slots no primary owns. A
pass hands them out in disjoint shares, of which any beginning may take effect; the
next pass splits what is left over whichever primaries it finds. -/

namespace ValkeyOperator.Cluster
open Text Valkey Api

variable {slot : Int} {replies : List (Option Err)} {nodes nodes' : List NodeState}
  {vnodes : List ValkeyNode} {p : NodeState} {cluster : PerconaValkeyCluster} {S : Sorter NodeState}

/-! ## The plans of a pass -/

theorem mem_freeSlots {nodes : List NodeState} (h : Distinct nodes)
    (hordered : ∀ p ∈ primaries nodes, Ordered p.slots) {slot : Int} :
    slot ∈ (newClusterState nodes).freeSlots ↔
      (0 ≤ slot ∧ slot ≤ maxSlot) ∧ ¬ Owned (primaries nodes) slot := by
  unfold ClusterState.freeSlots
  rw [List.mem_filter, SlotRange.mem_slots, decide_eq_true_eq]
  refine and_congr_right fun _ => not_congr ⟨fun hcovers => ?_, fun howned => ?_⟩
  · obtain ⟨p, hp, hprimary, hslot⟩ := owner_of_shards hcovers
    exact ⟨p, mem_primaries.mpr ⟨hp, hprimary⟩, hslot⟩
  · obtain ⟨p, hp, r, hr, hin⟩ := howned
    obtain ⟨hnodes, hprimary⟩ := mem_primaries.mp hp
    have hpending : p.isPending = false := by
      have hpos : 0 < p.numSlots := by
        unfold NodeState.numSlots
        rw [← length_expand (hordered p hp)]
        exact Int.natCast_pos.mpr (List.length_pos_of_mem (mem_expand.mpr ⟨r, hr, hin⟩))
      simp [NodeState.isPending, hprimary]
      omega
    have howns : p.ownsSlots = true := by rw [NodeState.ownsSlots_eq, hprimary, hpending]; rfl
    refine ⟨r, List.mem_flatMap.mpr ⟨shardOf nodes p.shardID, ?_, ?_⟩, hin⟩
    · exact mem_newClusterState_shards.mpr ⟨p, hnodes, hpending, rfl⟩
    · rw [h.slots_shardOf hnodes howns]
      exact hr

theorem nodup_freeSlots (s : ClusterState) : s.freeSlots.Nodup :=
  ((SlotRange.pairwise_slots ⟨0, maxSlot⟩).imp fun hlt heq => absurd heq (ne_of_lt hlt)).filter _

theorem mem_primariesToFill (hp : p ∈ primariesToFill S cluster (newClusterState nodes) vnodes) :
    p ∈ primaries nodes := by
  have hpending := List.mem_filter.mp (S.mem_sort.mp hp)
  rw [(newClusterState_groups nodes).2] at hpending
  obtain ⟨hnodes, hp⟩ := List.mem_filter.mp hpending.1
  unfold NodeState.isPending at hp
  rw [Bool.and_eq_true] at hp
  exact mem_primaries.mpr ⟨hnodes, hp.1⟩

section Plans

variable {S : Sorter NodeState} {cluster : PerconaValkeyCluster} {nodes : List NodeState}
  {vnodes : List ValkeyNode}

theorem plans_disjoint (hordered : Ordered ((newClusterState nodes).shards.flatMap (·.slots)))
    {q : NodeState} {chunk chunk' : List SlotRange}
    (hp : (p, chunk) ∈ plans S cluster (newClusterState nodes) vnodes)
    (hq : (q, chunk') ∈ plans S cluster (newClusterState nodes) vnodes)
    (hslot : Covers chunk slot) (hslot' : Covers chunk' slot) : p = q := by
  obtain ⟨i, hi, hcovers⟩ := mem_plans hordered hp
  obtain ⟨j, hj, hcovers'⟩ := mem_plans hordered hq
  have hij : i = j := evenShare_unique (nodup_freeSlots _) (List.getElem?_eq_some_iff.mp hi).1
    (List.getElem?_eq_some_iff.mp hj).1 ((hcovers slot).mp hslot) ((hcovers' slot).mp hslot')
  subst hij
  rw [hi] at hj
  exact Option.some.inj hj

theorem plans_free (hordered : Ordered ((newClusterState nodes).shards.flatMap (·.slots)))
    {chunk : List SlotRange} (hp : (p, chunk) ∈ plans S cluster (newClusterState nodes) vnodes)
    (hslot : Covers chunk slot) :
    p ∈ primaries nodes ∧ slot ∈ (newClusterState nodes).freeSlots := by
  obtain ⟨i, hi, hcovers⟩ := mem_plans hordered hp
  refine ⟨mem_primariesToFill (List.mem_of_getElem? hi), ?_⟩
  exact List.mem_of_mem_drop (List.mem_of_mem_take ((hcovers slot).mp hslot))

/-- Every free slot is planned for someone, if there is someone to plan for. -/
theorem exists_plan (hordered : Ordered ((newClusterState nodes).shards.flatMap (·.slots)))
    (hsome : primariesToFill S cluster (newClusterState nodes) vnodes ≠ [])
    (hslot : slot ∈ (newClusterState nodes).freeSlots) :
    ∃ p chunk, (p, chunk) ∈ plans S cluster (newClusterState nodes) vnodes ∧ Covers chunk slot := by
  obtain ⟨i, hi, hshare⟩ := exists_mem_evenShare (List.length_pos_of_ne_nil hsome) hslot
  obtain ⟨chunk, hplan, hcovers⟩ := getElem?_plans hordered (List.getElem?_eq_getElem hi)
  exact ⟨_, chunk, List.mem_of_getElem? hplan, (hcovers slot).mpr hshare⟩

end Plans

/-! ## What takes effect -/

/-- Of the commands of a pass a beginning takes effect, all of them if the pass ends
without error. -/
theorem assignEach_acked (plans : List (NodeState × List SlotRange)) (assigned : Nat)
    (w : Engines) :
    ∃ cs, ((assignEach plans assigned).after w).sent = w.sent ++ cs ∧
      Wire.acked cs w.replies <+: assignments plans ∧
      (∀ n w', assignEach plans assigned w = .ok n w' →
        Wire.acked cs w.replies = assignments plans) := by
  induction plans generalizing assigned w with
  | nil => exact ⟨[], (List.append_nil _).symm, List.prefix_rfl, fun _ _ _ => rfl⟩
  | cons plan rest ih =>
    obtain ⟨p, ranges⟩ := plan
    unfold assignments
    rw [List.flatMap_cons]
    by_cases hempty : ranges = []
    · rw [assignEach, if_pos hempty, if_pos hempty, List.nil_append]
      exact ih assigned w
    · rw [assignEach, if_neg hempty, if_neg hempty, List.singleton_append]
      obtain ⟨sent, replies⟩ := w
      match replies with
      | [] =>
        obtain ⟨cs, hsent, hbegun, hall⟩ :=
          ih (assigned + 1) ⟨sent ++ [(p, .addSlotsRange ranges)], []⟩
        refine ⟨(p, .addSlotsRange ranges) :: cs, ?_, ?_, fun n w' hok => ?_⟩
        · exact hsent.trans (List.append_assoc _ _ _)
        · exact (List.cons_prefix_cons).mpr ⟨rfl, hbegun⟩
        · exact congrArg _ (hall n w' hok)
      | none :: rs =>
        obtain ⟨cs, hsent, hbegun, hall⟩ :=
          ih (assigned + 1) ⟨sent ++ [(p, .addSlotsRange ranges)], rs⟩
        refine ⟨(p, .addSlotsRange ranges) :: cs, ?_, ?_, fun n w' hok => ?_⟩
        · exact hsent.trans (List.append_assoc _ _ _)
        · exact (List.cons_prefix_cons).mpr ⟨rfl, hbegun⟩
        · exact congrArg _ (hall n w' hok)
      | some e :: rs =>
        exact ⟨[(p, .addSlotsRange ranges)], rfl, List.nil_prefix, fun n w' hok => nomatch hok⟩

/-- The commands of a pass that took effect. -/
def acknowledged (S : Sorter NodeState) (cluster : PerconaValkeyCluster) (vnodes : List ValkeyNode)
    (replies : List (Option Err)) (nodes : List NodeState) : List (NodeState × Command) :=
  Wire.acked ((assignSlotsToPendingPrimaries S cluster (newClusterState nodes) vnodes).after
    ⟨[], replies⟩).sent replies

section Pass

variable {S : Sorter NodeState} {cluster : PerconaValkeyCluster} {nodes : List NodeState}
  {vnodes : List ValkeyNode} {replies : List (Option Err)}

theorem acknowledged_plans :
    acknowledged S cluster vnodes replies nodes <+:
        assignments (plans S cluster (newClusterState nodes) vnodes) ∧
      ∀ n w, assignSlotsToPendingPrimaries S cluster (newClusterState nodes) vnodes
          ⟨[], replies⟩ = .ok n w →
        acknowledged S cluster vnodes replies nodes =
          assignments (plans S cluster (newClusterState nodes) vnodes) := by
  unfold acknowledged assignSlotsToPendingPrimaries
  dsimp only
  split
  · rename_i hnone
    unfold plans
    rw [hnone]
    exact ⟨List.prefix_rfl, fun _ _ _ => rfl⟩
  · split
    · rename_i hfull
      rw [assignments_plans_of_full hfull]
      exact ⟨List.prefix_rfl, fun _ _ _ => rfl⟩
    · obtain ⟨cs, hsent, hbegun, hall⟩ := assignEach_acked
        (plans S cluster (newClusterState nodes) vnodes) 0 ⟨[], replies⟩
      rw [List.nil_append] at hsent
      unfold plans at hsent hbegun hall ⊢
      rw [hsent]
      exact ⟨hbegun, hall⟩

end Pass

/-! ## Runs -/

/-- Some command adds the slot to the node with this ID. -/
def AddsSlot (commands : List (NodeState × Command)) (id : Str) (slot : Int) : Prop :=
  ∃ p ranges, (p, Command.addSlotsRange ranges) ∈ commands ∧ p.id = id ∧ Covers ranges slot

/-- A node before and after commands have taken effect. -/
structure Assigned (commands : List (NodeState × Command)) (a b : NodeState) : Prop where
  id : b.id = a.id
  shardID : b.shardID = a.shardID
  addr : b.addr = a.addr
  role : b.role = a.role
  ordered : Ordered b.slots
  nodup : (expand b.slots).Nodup
  covers : ∀ slot, Covers b.slots slot ↔ Covers a.slots slot ∨ AddsSlot commands a.id slot

def TakesEffect (commands : List (NodeState × Command)) (nodes nodes' : List NodeState) : Prop :=
  ∃ f, nodes' = nodes.map f ∧ ∀ n ∈ nodes, Assigned commands n (f n)

/-- The slots that commands add to the node with this ID. -/
def addedSlots (commands : List (NodeState × Command)) (id : Str) : List Int :=
  commands.flatMap fun c =>
    match c.2 with
    | .addSlotsRange ranges => if c.1.id = id then expand ranges else []
    | _ => []

theorem mem_addedSlots {commands : List (NodeState × Command)} {id : Str} :
    slot ∈ addedSlots commands id ↔ AddsSlot commands id slot := by
  unfold addedSlots AddsSlot
  rw [List.mem_flatMap]
  constructor
  · intro h
    obtain ⟨⟨p, c⟩, hmem, hslot⟩ := h
    cases c with
    | addSlotsRange ranges =>
      dsimp only at hslot
      split at hslot
      · exact ⟨p, ranges, hmem, ‹_›, mem_expand.mp hslot⟩
      · cases hslot
    | _ => cases hslot
  · intro h
    obtain ⟨p, ranges, hmem, rfl, hcovers⟩ := h
    exact ⟨_, hmem, by simpa using mem_expand.mpr hcovers⟩

/-- Commands can always take effect: the node with its ranges listed in order. -/
def assign (commands : List (NodeState × Command)) (n : NodeState) : NodeState :=
  { n with slots := slotsToRanges (expand n.slots ++ addedSlots commands n.id).dedup }

theorem assigned_assign (commands : List (NodeState × Command)) (n : NodeState) :
    Assigned commands n (assign commands n) where
  id := rfl
  shardID := rfl
  addr := rfl
  role := rfl
  ordered := ordered_slotsToRanges _
  nodup := (perm_expand_slotsToRanges _).nodup_iff.mpr (List.nodup_dedup _)
  covers slot := by
    unfold assign
    rw [covers_slotsToRanges, List.mem_dedup, List.mem_append, mem_expand, mem_addedSlots]

theorem takesEffect_assign (commands : List (NodeState × Command)) (nodes : List NodeState) :
    TakesEffect commands nodes (nodes.map (assign commands)) :=
  ⟨_, rfl, fun n _ => assigned_assign commands n⟩

def OwnedBy (nodes : List NodeState) (id : Str) (slot : Int) : Prop :=
  ∃ p ∈ primaries nodes, p.id = id ∧ Covers p.slots slot

/-- What happens to the engines of a cluster that is being formed. -/
inductive FormationStep (nodes nodes' : List NodeState) : Prop where
  /-- a pass, or as much of it as has been made -/
  | pass (S : Sorter NodeState) (cluster : PerconaValkeyCluster) (vnodes : List ValkeyNode)
      (replies : List (Option Err)) (taken : List (NodeState × Command))
      (begun : taken <+: acknowledged S cluster vnodes replies nodes)
      (effect : TakesEffect taken nodes nodes')
  /-- nodes appear, meet, attach to a primary or move; who owns what stays -/
  | change (distinct : Distinct nodes') (ordered : ∀ p ∈ primaries nodes', Ordered p.slots)
      (nodup : ∀ p ∈ primaries nodes', (expand p.slots).Nodup)
      (same : ∀ id slot, OwnedBy nodes' id slot ↔ OwnedBy nodes id slot)

/-- All primaries are told apart and no slot is owned twice. -/
structure WellOwned (nodes : List NodeState) : Prop where
  distinct : Distinct nodes
  exclusive : Exclusive (primaries nodes)

theorem Assigned.isPrimary {commands : List (NodeState × Command)} {a b : NodeState}
    (h : Assigned commands a b) : b.isPrimary = a.isPrimary := by
  unfold NodeState.isPrimary
  rw [h.role]

section Effect

variable {nodes : List NodeState} {commands : List (NodeState × Command)}
  {f : NodeState → NodeState}

theorem primaries_map_assigned (hf : ∀ n ∈ nodes, Assigned commands n (f n)) :
    primaries (nodes.map f) = (primaries nodes).map f :=
  primaries_map fun n hn => (hf n hn).isPrimary

theorem distinct_map_assigned (h : Distinct nodes)
    (hf : ∀ n ∈ nodes, Assigned commands n (f n)) : Distinct (nodes.map f) :=
  h.map (fun n hn => (hf n hn).isPrimary) (fun n hn => (hf n hn).id) (fun n hn => (hf n hn).addr)
    fun n hn => (hf n hn).shardID

end Effect

theorem WellOwned.ordered (h : WellOwned nodes) :
    Ordered ((newClusterState nodes).shards.flatMap (·.slots)) := by
  intro r hr
  obtain ⟨p, hp, hprimary, hr⟩ := primary_of_shards hr
  exact h.exclusive.ordered p (mem_primaries.mpr ⟨hp, hprimary⟩) r hr

/-- What a command of a pass adds is free and planned for the one node. -/
theorem AddsSlot.planned {taken : List (NodeState × Command)} {id : Str}
    (hadds : AddsSlot taken id slot) (h : taken <+: acknowledged S cluster vnodes replies nodes) :
    ∃ p chunk, (p, chunk) ∈ plans S cluster (newClusterState nodes) vnodes ∧ p.id = id ∧
      Covers chunk slot := by
  obtain ⟨p, ranges, hmem, hid, hcovers⟩ := hadds
  have hassigned := (h.trans acknowledged_plans.1).subset hmem
  exact ⟨p, ranges, (mem_assignments.mp hassigned).2, hid, hcovers⟩

/-- A pass never gives a slot to a second primary. -/
theorem WellOwned.pass {taken : List (NodeState × Command)} (h : WellOwned nodes)
    (hbegun : taken <+: acknowledged S cluster vnodes replies nodes)
    (heffect : TakesEffect taken nodes nodes') : WellOwned nodes' := by
  obtain ⟨f, rfl, hf⟩ := heffect
  have hprimaries : ∀ p ∈ primaries nodes, Assigned taken p (f p) :=
    fun p hp => hf p (mem_primaries.mp hp).1
  have hfree := @mem_freeSlots nodes h.distinct h.exclusive.ordered
  refine ⟨distinct_map_assigned h.distinct hf, ?_⟩
  rw [primaries_map_assigned hf]
  refine .of_map (fun p hp => (hprimaries p hp).ordered) (fun p hp => (hprimaries p hp).nodup) ?_
  intro a ha b hb slot haslot hbslot
  rw [(hprimaries a ha).covers] at haslot
  rw [(hprimaries b hb).covers] at hbslot
  rcases haslot with hold | hnew <;> rcases hbslot with hold' | hnew'
  · exact h.exclusive.unique a ha b hb slot hold hold'
  · obtain ⟨p, chunk, hplan, -, hcovers⟩ := hnew'.planned hbegun
    exact absurd ⟨a, ha, hold⟩ (hfree.mp (plans_free h.ordered hplan hcovers).2).2
  · obtain ⟨p, chunk, hplan, -, hcovers⟩ := hnew.planned hbegun
    exact absurd ⟨b, hb, hold'⟩ (hfree.mp (plans_free h.ordered hplan hcovers).2).2
  · obtain ⟨p, chunk, hplan, hid, hcovers⟩ := hnew.planned hbegun
    obtain ⟨q, chunk', hplan', hid', hcovers'⟩ := hnew'.planned hbegun
    have heq := plans_disjoint h.ordered hplan hplan' hcovers hcovers'
    refine h.distinct.eq_of_id (mem_primaries.mp ha).1 (mem_primaries.mp hb).1 ?_
    rw [← hid, heq, hid']

theorem WellOwned.change (h : WellOwned nodes) (hdistinct : Distinct nodes')
    (hordered : ∀ p ∈ primaries nodes', Ordered p.slots)
    (hnodup : ∀ p ∈ primaries nodes', (expand p.slots).Nodup)
    (hsame : ∀ id slot, OwnedBy nodes' id slot ↔ OwnedBy nodes id slot) : WellOwned nodes' := by
  refine ⟨hdistinct, hordered, hnodup, fun p hp q hq slot hpslot hqslot => ?_⟩
  obtain ⟨a, ha, haid, haslot⟩ := (hsame p.id slot).mp ⟨p, hp, rfl, hpslot⟩
  obtain ⟨b, hb, hbid, hbslot⟩ := (hsame q.id slot).mp ⟨q, hq, rfl, hqslot⟩
  have heq := h.exclusive.unique a ha b hb slot haslot hbslot
  refine hdistinct.eq_of_id (mem_primaries.mp hp).1 (mem_primaries.mp hq).1 ?_
  rw [← haid, heq, hbid]

theorem FormationStep.wellOwned (hstep : FormationStep nodes nodes') (h : WellOwned nodes) :
    WellOwned nodes' := by
  cases hstep with
  | pass S cluster vnodes replies taken begun effect => exact h.pass begun effect
  | change distinct ordered nodup same => exact h.change distinct ordered nodup same

theorem wellOwned_of_empty (hdistinct : Distinct nodes) (hempty : ∀ n ∈ nodes, n.slots = []) :
    WellOwned nodes := by
  have hnone : ∀ p ∈ primaries nodes, p.slots = [] := fun p hp => hempty p (mem_primaries.mp hp).1
  refine ⟨hdistinct, fun p hp => ?_, fun p hp => ?_, fun p hp q _ slot hslot _ => ?_⟩
  · rw [hnone p hp]
    exact fun r hr => nomatch hr
  · rw [hnone p hp]
    exact List.nodup_nil
  · obtain ⟨r, hr, -⟩ := hslot
    rw [hnone p hp] at hr
    cases hr

/-- A whole pass that finds a primary to fill leaves no slot without an owner. -/
theorem WellOwned.covered {n : Nat} {w : Engines} (h : WellOwned nodes)
    (hsome : primariesToFill S cluster (newClusterState nodes) vnodes ≠ [])
    (hok : assignSlotsToPendingPrimaries S cluster (newClusterState nodes) vnodes
      ⟨[], replies⟩ = .ok n w)
    (heffect : TakesEffect (acknowledged S cluster vnodes replies nodes) nodes nodes')
    (hlow : 0 ≤ slot) (hhigh : slot ≤ maxSlot) : Owned (primaries nodes') slot := by
  obtain ⟨f, rfl, hf⟩ := heffect
  rw [primaries_map_assigned hf]
  -- an owner of the slot keeps it; a free one has been planned for someone
  by_cases howned : Owned (primaries nodes) slot
  · obtain ⟨p, hp, hcovers⟩ := howned
    refine ⟨f p, List.mem_map_of_mem hp, ?_⟩
    exact ((hf p (mem_primaries.mp hp).1).covers slot).mpr (.inl hcovers)
  · have hfree := (mem_freeSlots h.distinct h.exclusive.ordered).mpr ⟨⟨hlow, hhigh⟩, howned⟩
    obtain ⟨p, chunk, hplan, hcovers⟩ := exists_plan h.ordered hsome hfree
    have hp := (plans_free h.ordered hplan hcovers).1
    refine ⟨f p, List.mem_map_of_mem hp, ((hf p (mem_primaries.mp hp).1).covers slot).mpr ?_⟩
    refine .inr ⟨p, chunk, ?_, rfl, hcovers⟩
    rw [acknowledged_plans.2 n w hok]
    refine mem_assignments.mpr ⟨?_, hplan⟩
    rintro rfl
    obtain ⟨r, hr, -⟩ := hcovers
    cases hr

/-- Forming a cluster out of empty nodes never gives a slot to two primaries, at no
point of any pass, whatever fails; and once a pass that finds a primary to fill has
ended without error, all slots are owned. -/
theorem bootstrap_never_double_assigns {start nodes : List NodeState} (hdistinct : Distinct start)
    (hempty : ∀ n ∈ start, n.slots = []) (hrun : Relation.ReflTransGen FormationStep start nodes) :
    Exclusive (primaries nodes) ∧
    ∀ S cluster vnodes replies n w nodes',
      primariesToFill S cluster (newClusterState nodes) vnodes ≠ [] →
      assignSlotsToPendingPrimaries S cluster (newClusterState nodes) vnodes
        ⟨[], replies⟩ = .ok n w →
      TakesEffect (acknowledged S cluster vnodes replies nodes) nodes nodes' →
      ∀ slot, 0 ≤ slot → slot ≤ maxSlot → Owned (primaries nodes') slot := by
  have h : WellOwned nodes := by
    induction hrun with
    | refl => exact wellOwned_of_empty hdistinct hempty
    | tail _ hstep ih => exact hstep.wellOwned ih
  refine ⟨h.exclusive, fun S cluster vnodes replies n w nodes' hsome hok heffect slot hlow hhigh => ?_⟩
  exact h.covered hsome hok heffect hlow hhigh

/-- Two engines that have met, at the positions of two primaries. -/
def twoEngines : List NodeState :=
  [{ id := "a1", shardID := "s1", addr := "10.0.0.1:6379", role := .primary
     knownNodes := 2 },
   { id := "b2", shardID := "s2", addr := "10.0.0.2:6379", role := .primary
     knownNodes := 2 }]

def twoPositions : List ValkeyNode :=
  [nodeAt "prod" 0 0 "10.0.0.1", nodeAt "prod" 1 0 "10.0.0.2"]

theorem bootstrap_never_double_assigns_twoEngines :
    ∃ nodes', FormationStep twoEngines nodes' ∧ Exclusive (primaries nodes') ∧
      ∀ slot, 0 ≤ slot → slot ≤ maxSlot → Owned (primaries nodes') slot := by
  let cluster : PerconaValkeyCluster := { name := "prod", spec := { shards := 2 } }
  have hdistinct : Distinct twoEngines := ⟨by decide, by decide, by decide⟩
  have hempty : ∀ n ∈ twoEngines, n.slots = [] := by decide
  have hsome : primariesToFill .insertion cluster (newClusterState twoEngines) twoPositions ≠ [] := by
    decide
  obtain ⟨n, hissues⟩ := assignSlotsToPendingPrimaries_issues .insertion cluster
    (newClusterState twoEngines) twoPositions
  have heffect := takesEffect_assign
    (acknowledged .insertion cluster twoPositions [] twoEngines) twoEngines
  have hstep : FormationStep twoEngines _ :=
    .pass .insertion cluster twoPositions [] _ List.prefix_rfl heffect
  refine ⟨_, hstep, (bootstrap_never_double_assigns hdistinct hempty (.single hstep)).1, ?_⟩
  exact (bootstrap_never_double_assigns hdistinct hempty .refl).2 .insertion cluster twoPositions []
    n _ _ hsome (hissues.all []) heffect

end ValkeyOperator.Cluster

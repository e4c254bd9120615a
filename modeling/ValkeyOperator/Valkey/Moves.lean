import Mathlib.Data.List.Dedup
import ValkeyOperator.Valkey.Grouping
import ValkeyOperator.Valkey.Plan

/-! Planned moves carried out.

A migration hands the slots of its ranges over from one node to another. How the
ranges of a node are listed afterwards is left open: any disjoint ranges with the
right slots will do. -/

namespace ValkeyOperator.Valkey
open Text

variable {slots : List SlotRange} {m : Move} {b dst src : NodeState}

theorem numSlots_nonneg {n : NodeState} (h : Ordered n.slots) : 0 ≤ n.numSlots := by
  unfold NodeState.numSlots
  rw [← length_expand h]
  exact Int.natCast_nonneg _

theorem countSlots_of_perm {a b : List SlotRange} (ha : Ordered a) (hb : Ordered b)
    (h : (expand a).Perm (expand b)) : countSlots a = countSlots b := by
  rw [← length_expand ha, ← length_expand hb, h.length_eq]

theorem countSlots_append (a b : List SlotRange) :
    countSlots (a ++ b) = countSlots a + countSlots b := by
  simp [countSlots]

theorem expand_append (a b : List SlotRange) : expand (a ++ b) = expand a ++ expand b := by
  simp [expand]

/-! ## One node -/

namespace Move

def numSlots (m : Move) : Int := countSlots m.ranges

/-- Whether a node owns a slot once the move has been made. -/
def Leaves (m : Move) (n : NodeState) (slot : Int) : Prop :=
  if n.id = m.dstID then Covers n.slots slot ∨ Covers m.ranges slot
  else if n.id = m.srcID then Covers n.slots slot ∧ ¬ Covers m.ranges slot
  else Covers n.slots slot

instance (m : Move) (n : NodeState) (slot : Int) : Decidable (m.Leaves n slot) :=
  inferInstanceAs (Decidable (if n.id = m.dstID then Covers n.slots slot ∨ Covers m.ranges slot
    else if n.id = m.srcID then Covers n.slots slot ∧ ¬ Covers m.ranges slot
    else Covers n.slots slot))

/-- A node before and after the move. -/
structure Carried (m : Move) (a b : NodeState) : Prop where
  id : b.id = a.id
  shardID : b.shardID = a.shardID
  addr : b.addr = a.addr
  role : b.role = a.role
  ordered : Ordered b.slots
  nodup : (expand b.slots).Nodup
  covers : ∀ slot, Covers b.slots slot ↔ m.Leaves a slot

/-- The node with its ranges listed in order. -/
def carry (m : Move) (n : NodeState) : NodeState :=
  let left := (expand n.slots ++ expand m.ranges).dedup.filter fun slot => m.Leaves n slot
  { n with slots := slotsToRanges left }

theorem carried_carry (m : Move) (n : NodeState) : m.Carried n (m.carry n) where
  id := rfl
  shardID := rfl
  addr := rfl
  role := rfl
  ordered := ordered_slotsToRanges _
  nodup := (perm_expand_slotsToRanges _).nodup_iff.mpr ((List.nodup_dedup _).filter _)
  covers slot := by
    unfold carry
    rw [covers_slotsToRanges, List.mem_filter, List.mem_dedup, List.mem_append, mem_expand,
      mem_expand, decide_eq_true_eq]
    refine and_iff_right_of_imp fun h => ?_
    unfold Leaves at h
    split at h
    · exact h
    · split at h
      · exact .inl h.1
      · exact .inl h

theorem Carried.isPrimary {a : NodeState} (h : m.Carried a b) : b.isPrimary = a.isPrimary := by
  unfold NodeState.isPrimary
  rw [h.role]

theorem Carried.numSlots_other {a : NodeState} (h : m.Carried a b) (ha : Ordered a.slots)
    (hnodup : (expand a.slots).Nodup) (hsrc : a.id ≠ m.srcID) (hdst : a.id ≠ m.dstID) :
    b.numSlots = a.numSlots := by
  refine countSlots_of_perm h.ordered ha ?_
  refine (List.perm_ext_iff_of_nodup h.nodup hnodup).mpr fun slot => ?_
  rw [mem_expand, mem_expand, h.covers, Leaves, if_neg hdst, if_neg hsrc]

/-- The move takes slots that `src` owns to `dst`, which owns none of them. -/
structure Between (m : Move) (src dst : NodeState) : Prop where
  srcID : m.srcID = src.id
  dstID : m.dstID = dst.id
  ne : src.id ≠ dst.id
  ordered : Ordered m.ranges
  nodup : (expand m.ranges).Nodup
  owned : ∀ slot, Covers m.ranges slot → Covers src.slots slot
  fresh : ∀ slot, Covers m.ranges slot → ¬ Covers dst.slots slot

theorem Between.leaves_src (h : m.Between src dst) (slot : Int) :
    m.Leaves src slot ↔ Covers src.slots slot ∧ ¬ Covers m.ranges slot := by
  rw [Leaves, h.dstID, h.srcID, if_neg h.ne, if_pos rfl]

theorem Between.leaves_dst (h : m.Between src dst) (slot : Int) :
    m.Leaves dst slot ↔ Covers dst.slots slot ∨ Covers m.ranges slot := by
  rw [Leaves, h.dstID, if_pos rfl]

theorem Between.numSlots_src (h : m.Between src dst) (hb : m.Carried src b)
    (hsrc : Ordered src.slots) (hnodup : (expand src.slots).Nodup) :
    b.numSlots + m.numSlots = src.numSlots := by
  unfold NodeState.numSlots Move.numSlots
  rw [← countSlots_append]
  have hordered : Ordered (b.slots ++ m.ranges) := by
    intro r hr
    rcases List.mem_append.mp hr with hr | hr
    · exact hb.ordered r hr
    · exact h.ordered r hr
  refine countSlots_of_perm hordered hsrc ?_
  rw [expand_append]
  refine (List.perm_ext_iff_of_nodup ?_ hnodup).mpr fun slot => ?_
  · refine List.nodup_append.mpr ⟨hb.nodup, h.nodup, fun x hx y hy => ?_⟩
    rintro rfl
    rw [mem_expand, hb.covers, h.leaves_src] at hx
    exact hx.2 (mem_expand.mp hy)
  · rw [List.mem_append, mem_expand, mem_expand, mem_expand, hb.covers, h.leaves_src]
    have := h.owned slot
    tauto

theorem Between.numSlots_dst (h : m.Between src dst) (hb : m.Carried dst b)
    (hdst : Ordered dst.slots) (hnodup : (expand dst.slots).Nodup) :
    b.numSlots = dst.numSlots + m.numSlots := by
  unfold NodeState.numSlots Move.numSlots
  rw [← countSlots_append]
  have hordered : Ordered (dst.slots ++ m.ranges) := by
    intro r hr
    rcases List.mem_append.mp hr with hr | hr
    · exact hdst r hr
    · exact h.ordered r hr
  refine countSlots_of_perm hb.ordered hordered ?_
  rw [expand_append]
  refine (List.perm_ext_iff_of_nodup hb.nodup ?_).mpr fun slot => ?_
  · refine List.nodup_append.mpr ⟨hnodup, h.nodup, fun x hx y hy => ?_⟩
    rintro rfl
    exact h.fresh x (mem_expand.mp hy) (mem_expand.mp hx)
  · rw [List.mem_append, mem_expand, mem_expand, mem_expand, hb.covers, h.leaves_dst]

end Move

/-! ## A batch from the front -/

/-- The lowest slots of a node as ranges. -/
def batchOf (slots : List SlotRange) (count : Int) : List SlotRange :=
  slotsToRanges (takeSlots slots count)

theorem covers_batchOf {count slot : Int} (h : Covers (batchOf slots count) slot) :
    Covers slots slot := by
  rw [batchOf, covers_slotsToRanges, takeSlots_eq] at h
  exact mem_expand.mp (List.mem_of_mem_take h)

theorem countSlots_batchOf (h : Ordered slots) {count : Int} (hpos : 0 ≤ count)
    (hle : count ≤ countSlots slots) : countSlots (batchOf slots count) = count := by
  rw [← length_expand h] at hle
  rw [batchOf, countSlots_slotsToRanges, takeSlots_eq, List.length_take]
  omega

theorem nodup_expand_batchOf (h : (expand slots).Nodup) (count : Int) :
    (expand (batchOf slots count)).Nodup := by
  rw [batchOf, (perm_expand_slotsToRanges _).nodup_iff, takeSlots_eq]
  exact h.sublist (List.take_sublist _ _)

/-! ## Several nodes -/

/-- No slot is listed twice, by one node or by two. -/
structure Exclusive (holders : List NodeState) : Prop where
  ordered : ∀ p ∈ holders, Ordered p.slots
  nodup : ∀ p ∈ holders, (expand p.slots).Nodup
  unique : ∀ p ∈ holders, ∀ q ∈ holders, ∀ slot, Covers p.slots slot → Covers q.slots slot → p = q

/-- A change of the holders, told by the holders as they were. -/
theorem Exclusive.of_map {holders : List NodeState} {f : NodeState → NodeState}
    (hordered : ∀ p ∈ holders, Ordered (f p).slots) (hnodup : ∀ p ∈ holders, (expand (f p).slots).Nodup)
    (hunique : ∀ p ∈ holders, ∀ q ∈ holders, ∀ slot, Covers (f p).slots slot →
      Covers (f q).slots slot → p = q) : Exclusive (holders.map f) := by
  refine ⟨List.forall_mem_map.mpr hordered, List.forall_mem_map.mpr hnodup, ?_⟩
  intro p hp q hq slot hpslot hqslot
  obtain ⟨a, ha, rfl⟩ := List.mem_map.mp hp
  obtain ⟨b, hb, rfl⟩ := List.mem_map.mp hq
  rw [hunique a ha b hb slot hpslot hqslot]

def Owned (holders : List NodeState) (slot : Int) : Prop := ∃ p ∈ holders, Covers p.slots slot

/-- A batch of one holder's slots is not owned by another. -/
theorem Exclusive.between {holders : List NodeState} (h : Exclusive holders)
    (hsrc : src ∈ holders) (hdst : dst ∈ holders) (hne : src.id ≠ dst.id) (count : Int) :
    Move.Between ⟨src.id, dst.id, batchOf src.slots count⟩ src dst where
  srcID := rfl
  dstID := rfl
  ne := hne
  ordered := ordered_slotsToRanges _
  nodup := nodup_expand_batchOf (h.nodup src hsrc) count
  owned _ hs := covers_batchOf hs
  fresh slot hs hcovers :=
    hne (congrArg _ (h.unique src hsrc dst hdst slot (covers_batchOf hs) hcovers))

/-- The move has been carried out on a table. -/
def Move.Applied (m : Move) (nodes nodes' : List NodeState) : Prop :=
  ∃ f, nodes' = nodes.map f ∧ ∀ n ∈ nodes, m.Carried n (f n)

theorem Move.exists_applied (m : Move) (nodes : List NodeState) :
    ∃ nodes', m.Applied nodes nodes' :=
  ⟨_, m.carry, rfl, fun n _ => m.carried_carry n⟩

section Carried

variable {holders : List NodeState} {m : Move} {f : NodeState → NodeState} {src dst : NodeState}

/-- Who owns a slot after the move owned it before, or the source did. -/
theorem Move.Between.owner_before (hm : m.Between src dst)
    (hf : ∀ p ∈ holders, m.Carried p (f p)) {p : NodeState} (hp : p ∈ holders) {slot : Int}
    (hcovers : Covers (f p).slots slot) :
    (Covers p.slots slot ∧ (Covers m.ranges slot → p.id ≠ m.srcID)) ∨
      (p.id = m.dstID ∧ Covers m.ranges slot ∧ Covers src.slots slot) := by
  rw [(hf p hp).covers, Move.Leaves] at hcovers
  split at hcovers
  · rename_i hid
    rcases hcovers with hold | hmoved
    · refine .inl ⟨hold, fun _ hsource => hm.ne ?_⟩
      rw [← hm.srcID, ← hm.dstID, ← hid, hsource]
    · exact .inr ⟨hid, hmoved, hm.owned slot hmoved⟩
  · split at hcovers
    · exact .inl ⟨hcovers.1, fun hmoved => absurd hmoved hcovers.2⟩
    · rename_i hid
      exact .inl ⟨hcovers, fun _ => hid⟩

/-- Carrying out a move between two holders keeps all slots owned exactly once. -/
theorem Exclusive.map (h : Exclusive holders)
    (hids : ∀ p ∈ holders, ∀ q ∈ holders, p.id = q.id → p = q) (hm : m.Between src dst)
    (hsrc : src ∈ holders) (hf : ∀ p ∈ holders, m.Carried p (f p)) :
    Exclusive (holders.map f) := by
  refine .of_map (fun p hp => (hf p hp).ordered) (fun p hp => (hf p hp).nodup) ?_
  intro a ha b hb slot haslot hbslot
  rcases hm.owner_before hf ha haslot with ⟨hacovers, hasrc⟩ | ⟨hadst, hmoved, hsource⟩ <;>
    rcases hm.owner_before hf hb hbslot with ⟨hbcovers, hbsrc⟩ | ⟨hbdst, hmoved', hsource'⟩
  · exact h.unique a ha b hb slot hacovers hbcovers
  · have heq := h.unique a ha src hsrc slot hacovers hsource'
    exact absurd (heq ▸ hm.srcID.symm) (hasrc hmoved')
  · have heq := h.unique b hb src hsrc slot hbcovers hsource
    exact absurd (heq ▸ hm.srcID.symm) (hbsrc hmoved)
  · exact hids a ha b hb (hadst.trans hbdst.symm)

theorem Move.Between.owned_map (hm : m.Between src dst) (hsrc : src ∈ holders)
    (hdst : dst ∈ holders) (hf : ∀ p ∈ holders, m.Carried p (f p)) (slot : Int) :
    Owned (holders.map f) slot ↔ Owned holders slot := by
  constructor
  · intro h
    obtain ⟨q, hq, hcovers⟩ := h
    obtain ⟨p, hp, rfl⟩ := List.mem_map.mp hq
    rcases hm.owner_before hf hp hcovers with ⟨hold, -⟩ | ⟨-, -, hold⟩
    · exact ⟨p, hp, hold⟩
    · exact ⟨src, hsrc, hold⟩
  · intro h
    obtain ⟨p, hp, hcovers⟩ := h
    by_cases hmoved : Covers m.ranges slot
    · refine ⟨f dst, List.mem_map_of_mem hdst, ((hf dst hdst).covers slot).mpr ?_⟩
      exact (hm.leaves_dst slot).mpr (.inr hmoved)
    · refine ⟨f p, List.mem_map_of_mem hp, ((hf p hp).covers slot).mpr ?_⟩
      unfold Move.Leaves
      split
      · exact .inl hcovers
      · split
        · exact ⟨hcovers, hmoved⟩
        · exact hcovers

end Carried

end ValkeyOperator.Valkey

import ValkeyOperator.Valkey.Moves

/-! Runs of the drain planner.

A primary gives up one batch of its lowest slots after the other. Which slots are
owned does not change on the way, and the number of moves is that of the batches. -/

namespace ValkeyOperator.Valkey
open Text

variable {d d' : Draining} {batch : Int} {m : Move} {S : Sorter NodeState}

/-- A draining primary and the nodes that remain. -/
structure Draining where
  src : NodeState
  remaining : List NodeState

namespace Draining

def isOther (d : Draining) (n : NodeState) : Bool := n.id != d.src.id && n.isPrimary

/-- The nodes slots are with: the source and the other primaries. -/
def holders (d : Draining) : List NodeState := d.src :: d.remaining.filter d.isOther

theorem isOther_iff {n : NodeState} :
    d.isOther n = true ↔ n.id ≠ d.src.id ∧ n.isPrimary = true := by
  simp [isOther]

theorem mem_holders {n : NodeState} :
    n ∈ d.holders ↔ n = d.src ∨ n ∈ d.remaining ∧ n.id ≠ d.src.id ∧ n.isPrimary = true := by
  simp [holders, isOther_iff]

theorem eq_of_id (hids : (d.remaining.map (·.id)).Nodup) :
    ∀ p ∈ d.holders, ∀ q ∈ d.holders, p.id = q.id → p = q := by
  intro p hp q hq hid
  rcases mem_holders.mp hp with rfl | ⟨hp, hps, -⟩ <;>
    rcases mem_holders.mp hq with rfl | ⟨hq, hqs, -⟩
  · rfl
  · exact absurd hid.symm hqs
  · exact absurd hid hps
  · exact List.inj_on_of_nodup_map hids hp hq hid

/-- The move has been carried out. -/
def Moved (m : Move) (d d' : Draining) : Prop :=
  m.Carried d.src d'.src ∧ m.Applied d.remaining d'.remaining

theorem exists_moved (m : Move) (d : Draining) : ∃ d', Moved m d d' := by
  obtain ⟨remaining, happlied⟩ := m.exists_applied d.remaining
  exact ⟨⟨m.carry d.src, remaining⟩, m.carried_carry d.src, happlied⟩

theorem Moved.holders (h : Moved m d d') :
    ∃ f, d'.holders = d.holders.map f ∧ f d.src = d'.src ∧ ∀ p ∈ d.holders, m.Carried p (f p) := by
  obtain ⟨hsrc, g, hg, hcarried⟩ := h
  -- the source is carried on its own, the other nodes as the table says
  have hne : ∀ n ∈ d.remaining.filter d.isOther, n ≠ d.src := fun n hn heq =>
    (isOther_iff.mp (List.mem_filter.mp hn).2).1 (heq ▸ rfl)
  refine ⟨fun n => if n = d.src then d'.src else g n, ?_, if_pos rfl, fun p hp => ?_⟩
  · unfold Draining.holders
    rw [List.map_cons, if_pos rfl, hg, List.filter_map]
    congr 1
    have hsame : d.remaining.filter (d'.isOther ∘ g) = d.remaining.filter d.isOther := by
      refine List.filter_congr fun n hn => ?_
      unfold isOther
      rw [Function.comp_apply, (hcarried n hn).id, (hcarried n hn).isPrimary, hsrc.id]
    rw [hsame]
    exact List.map_congr_left fun n hn => (if_neg (hne n hn)).symm
  · dsimp only
    split
    · rename_i heq
      exact heq ▸ hsrc
    · rename_i hother
      rcases mem_holders.mp hp with heq | ⟨hp, -⟩
      · exact absurd heq hother
      · exact hcarried p hp

end Draining

/-! ## What the planner plans -/

theorem planDrainMove_eq_some (h : planDrainMove S d.src d.remaining batch = some m) :
    0 < batch ∧ d.src.numSlots ≠ 0 ∧ ∃ dst ∈ d.remaining, dst.id ≠ d.src.id ∧
      dst.isPrimary = true ∧
      m = ⟨d.src.id, dst.id, batchOf d.src.slots (min d.src.numSlots batch)⟩ := by
  unfold planDrainMove at h
  split at h
  · cases h
  rename_i hbatch
  split at h
  · cases h
  rename_i hslots
  split at h
  · cases h
  · rename_i dst hfind
    cases h
    have hdst := List.find?_some hfind
    rw [Bool.and_eq_true, bne_iff_ne] at hdst
    exact ⟨by omega, hslots, dst, S.mem_sort.mp (List.mem_of_find?_eq_some hfind), hdst.1, hdst.2,
      rfl⟩

/-- With somewhere to drain to, the planner stops at an empty source only. -/
theorem planDrainMove_eq_none_iff (S : Sorter NodeState) (hbatch : 1 ≤ batch)
    (hdest : ∃ n ∈ d.remaining, n.id ≠ d.src.id ∧ n.isPrimary = true) :
    planDrainMove S d.src d.remaining batch = none ↔ d.src.numSlots = 0 := by
  unfold planDrainMove
  rw [if_neg (by omega)]
  split
  · rename_i hzero
    simp [hzero]
  · rename_i hslots
    split
    · rename_i hfind
      obtain ⟨n, hn, hid, hprimary⟩ := hdest
      have := List.find?_eq_none.mp hfind n (S.mem_sort.mpr hn)
      simp [hid, hprimary] at this
    · simp [hslots]

/-! ## Runs -/

inductive DrainRun (S : Sorter NodeState) (batch : Int) (start : Draining) :
    List Move → Draining → Prop where
  | start : DrainRun S batch start [] start
  | move {moves : List Move} {d d' : Draining} {m : Move}
      (run : DrainRun S batch start moves d)
      (planned : planDrainMove S d.src d.remaining batch = some m)
      (moved : d.Moved m d') : DrainRun S batch start (moves ++ [m]) d'

/-- A node with this ID is a primary that remains. -/
def Draining.IsDestination (d : Draining) (id : Str) : Prop :=
  ∃ n ∈ d.remaining, n.id = id ∧ n.id ≠ d.src.id ∧ n.isPrimary = true

/-- What holds along a run from `start`. -/
structure DrainFacts (batch : Int) (start : Draining) (moves : List Move) (d : Draining) :
    Prop where
  ids : (d.remaining.map (·.id)).Nodup
  src_id : d.src.id = start.src.id
  exclusive : Exclusive d.holders
  owned : ∀ slot, Owned d.holders slot ↔ Owned start.holders slot
  destinations : ∀ id, d.IsDestination id ↔ start.IsDestination id
  batches : ∀ m ∈ moves, m.srcID = start.src.id ∧ 1 ≤ m.numSlots ∧ m.numSlots ≤ batch ∧
    start.IsDestination m.dstID
  left : d.src.numSlots = max 0 (start.src.numSlots - moves.length * batch)
  begun : (moves.length : Int) * batch < start.src.numSlots + batch

theorem Draining.Moved.isDestination_iff (h : d.Moved m d') (id : Str) :
    d'.IsDestination id ↔ d.IsDestination id := by
  obtain ⟨hsrc, g, hg, hcarried⟩ := h
  unfold IsDestination
  rw [hg, hsrc.id]
  constructor
  · intro h
    obtain ⟨b, hb, hid, hne, hprimary⟩ := h
    obtain ⟨a, ha, rfl⟩ := List.mem_map.mp hb
    rw [(hcarried a ha).id] at hid hne
    rw [(hcarried a ha).isPrimary] at hprimary
    exact ⟨a, ha, hid, hne, hprimary⟩
  · intro h
    obtain ⟨a, ha, hid, hne, hprimary⟩ := h
    refine ⟨g a, List.mem_map_of_mem ha, ?_⟩
    rw [(hcarried a ha).id, (hcarried a ha).isPrimary]
    exact ⟨hid, hne, hprimary⟩

theorem DrainFacts.move {start : Draining} {moves : List Move}
    (h : DrainFacts batch start moves d)
    (hplanned : planDrainMove S d.src d.remaining batch = some m) (hmoved : d.Moved m d') :
    DrainFacts batch start (moves ++ [m]) d' := by
  obtain ⟨hbatch, hslots, dst, hdst, hid, hprimary, hm⟩ := planDrainMove_eq_some hplanned
  have hsrcmem : d.src ∈ d.holders := Draining.mem_holders.mpr (.inl rfl)
  have hdstmem : dst ∈ d.holders := Draining.mem_holders.mpr (.inr ⟨hdst, hid, hprimary⟩)
  have hordered := h.exclusive.ordered d.src hsrcmem
  have hnonneg := numSlots_nonneg hordered
  have hbetween : m.Between d.src dst :=
    hm ▸ h.exclusive.between hsrcmem hdstmem hid.symm (min d.src.numSlots batch)
  have hcount : m.numSlots = min d.src.numSlots batch := by
    rw [hm]
    exact countSlots_batchOf hordered (by omega) (min_le_left _ _)
  obtain ⟨f, hholders, hfsrc, hf⟩ := hmoved.holders
  have hleft : d'.src.numSlots + m.numSlots = d.src.numSlots :=
    hbetween.numSlots_src hmoved.1 hordered (h.exclusive.nodup d.src hsrcmem)
  have hdecided := hmoved.isDestination_iff
  refine ⟨?_, ?_, ?_, ?_, ?_, ?_, ?_, ?_⟩
  · obtain ⟨-, g, hg, hcarried⟩ := hmoved
    rw [hg, List.map_map]
    exact (List.map_congr_left fun n hn => (hcarried n hn).id) ▸ h.ids
  · exact hmoved.1.id.trans h.src_id
  · rw [hholders]
    exact h.exclusive.map (Draining.eq_of_id h.ids) hbetween hsrcmem hf
  · intro slot
    rw [hholders, hbetween.owned_map hsrcmem hdstmem hf]
    exact h.owned slot
  · exact fun id => (hdecided id).trans (h.destinations id)
  · intro k hk
    rcases List.mem_append.mp hk with hk | hk
    · exact h.batches k hk
    · rw [List.mem_singleton.mp hk]
      refine ⟨hbetween.srcID.trans h.src_id, by omega, by omega, (h.destinations _).mp ?_⟩
      exact ⟨dst, hdst, hbetween.dstID.symm, hid, hprimary⟩
  · have := h.left
    rw [List.length_append, List.length_singleton, Int.natCast_add, Int.add_mul]
    omega
  · have := h.left
    rw [List.length_append, List.length_singleton, Int.natCast_add, Int.add_mul]
    omega

theorem DrainRun.facts {start : Draining} {moves : List Move}
    (hrun : DrainRun S batch start moves d) (hbatch : 1 ≤ batch)
    (hids : (start.remaining.map (·.id)).Nodup) (hexclusive : Exclusive start.holders) :
    DrainFacts batch start moves d := by
  induction hrun with
  | start =>
    have hnonneg := numSlots_nonneg
      (hexclusive.ordered start.src (Draining.mem_holders.mpr (.inl rfl)))
    exact ⟨hids, rfl, hexclusive, fun _ => Iff.rfl, fun _ => Iff.rfl, fun _ hm => (nomatch hm),
      by simpa using hnonneg, by simp; omega⟩
  | move _ hplanned hmoved ih => exact ih.move hplanned hmoved

/-- Draining a primary keeps every slot owned exactly once, always moves a batch at
most and to another primary that remains, goes on as long as the source owns slots,
and empties it with exactly as many moves as there are batches in it. -/
theorem drain_run_exact (S : Sorter NodeState) {batch : Int} (hbatch : 1 ≤ batch)
    {start d : Draining} {moves : List Move} (hids : (start.remaining.map (·.id)).Nodup)
    (hexclusive : Exclusive start.holders)
    (hdest : ∃ n ∈ start.remaining, n.id ≠ start.src.id ∧ n.isPrimary = true)
    (hrun : DrainRun S batch start moves d) :
    Exclusive d.holders ∧ (∀ slot, Owned d.holders slot ↔ Owned start.holders slot) ∧
    (∀ m ∈ moves, m.srcID = start.src.id ∧ 1 ≤ m.numSlots ∧ m.numSlots ≤ batch ∧
      start.IsDestination m.dstID) ∧
    (d.src.numSlots ≠ 0 → ∃ m d', planDrainMove S d.src d.remaining batch = some m ∧ d.Moved m d') ∧
    (moves.length : Int) ≤ (start.src.numSlots + batch - 1) / batch ∧
    (d.src.numSlots = 0 ↔ (moves.length : Int) = (start.src.numSlots + batch - 1) / batch) := by
  have facts := hrun.facts hbatch hids hexclusive
  have hleft := facts.left
  have hbegun := facts.begun
  have hlen : (moves.length : Int) ≤ (start.src.numSlots + batch - 1) / batch :=
    (Int.le_ediv_iff_mul_le (by omega)).mpr (by omega)
  refine ⟨facts.exclusive, facts.owned, facts.batches, fun hslots => ?_, hlen, ?_⟩
  · obtain ⟨n, hn, hne, hprimary⟩ := hdest
    obtain ⟨n', hn', -, hne', hprimary'⟩ := (facts.destinations n.id).mpr ⟨n, hn, rfl, hne, hprimary⟩
    cases hplan : planDrainMove S d.src d.remaining batch with
    | none =>
      exact absurd ((planDrainMove_eq_none_iff S hbatch ⟨n', hn', hne', hprimary'⟩).mp hplan) hslots
    | some m =>
      obtain ⟨d', hmoved⟩ := d.exists_moved m
      exact ⟨m, d', rfl, hmoved⟩
  · have hlast : (start.src.numSlots + batch - 1) / batch < moves.length + 1 ↔
        start.src.numSlots + batch - 1 < (moves.length + 1) * batch :=
      Int.ediv_lt_iff_lt_mul (by omega)
    rw [Int.add_mul] at hlast
    constructor
    · intro hzero
      have := hlast.mpr (by omega)
      omega
    · intro heq
      have := hlast.mp (by omega)
      omega

/-- A primary with ten slots and one other that remains, besides the source itself. -/
def tenSlots : Draining where
  src := { id := "a1", addr := "10.0.0.1:6379", role := .primary, slots := [⟨0, 9⟩] }
  remaining :=
    [{ id := "a1", addr := "10.0.0.1:6379", role := .primary, slots := [⟨0, 9⟩] },
      { id := "b2", addr := "10.0.0.2:6379", role := .primary
        slots := [⟨10, 16383⟩] }]

theorem exclusive_tenSlots : Exclusive tenSlots.holders := by
  have hholders : tenSlots.holders = [tenSlots.src,
      { id := "b2", addr := "10.0.0.2:6379", role := .primary
        slots := [⟨10, 16383⟩] }] := rfl
  have hnodup : ∀ r : SlotRange, (expand [r]).Nodup := fun r =>
    (pairwise_expand (List.pairwise_singleton _ r)).imp fun hlt heq => absurd heq (ne_of_lt hlt)
  rw [hholders]
  refine ⟨by decide, ?_, ?_⟩
  · intro p hp
    rcases List.mem_pair.mp hp with rfl | rfl <;> exact hnodup _
  · intro p hp q hq slot hpslot hqslot
    rcases List.mem_pair.mp hp with rfl | rfl <;> rcases List.mem_pair.mp hq with rfl | rfl
    · rfl
    · simp [tenSlots, Covers] at hpslot hqslot
      omega
    · simp [tenSlots, Covers] at hpslot hqslot
      omega
    · rfl

theorem drain_run_exact_tenSlots :
    ∃ m d, DrainRun .insertion 4 tenSlots [m] d ∧ Exclusive d.holders ∧
      tenSlots.IsDestination m.dstID ∧ (d.src.numSlots = 0 ↔ (1 : Int) = 3) := by
  have hdest : ∃ n ∈ tenSlots.remaining, n.id ≠ tenSlots.src.id ∧ n.isPrimary = true := by decide
  have hsome :
      (planDrainMove .insertion tenSlots.src tenSlots.remaining 4).isSome = true := by
    decide
  obtain ⟨m, hm⟩ := Option.isSome_iff_exists.mp hsome
  obtain ⟨d, hmoved⟩ := tenSlots.exists_moved m
  have hrun : DrainRun .insertion 4 tenSlots [m] d := .move .start hm hmoved
  have h := drain_run_exact .insertion (by decide) (by decide) exclusive_tenSlots hdest hrun
  exact ⟨m, d, hrun, h.1, (h.2.2.1 m (by simp)).2.2.2, h.2.2.2.2.2⟩

end ValkeyOperator.Valkey

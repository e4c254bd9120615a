import ValkeyOperator.Cluster.Reform

/-! The free slots and their even split.

`GetUnassignedSlots` cuts the owned ranges out of the full range one by one and never
sorts or merges. The fragments stay canonical all the same, so it finds the list that the
subtraction of `pkg/valkey/slots.go` ends with. The even split is written three times:
`SplitUnassignedEvenly` expands the free ranges and compacts the slots again,
`evenSplitRanges` accumulates starts, and `targetSlotsPerShard` gives sizes only. -/

namespace ValkeyOperator.Cluster
open Text Valkey

variable {slots : List Int} {n : Nat} {r : SlotRange}

/-! ## The unassigned ranges -/

/-- A canonical list of the slots that no shard owns is the list of unassigned ranges. -/
theorem eq_getUnassignedSlots {s : ClusterState} (h : Ordered (s.shards.flatMap (·.slots)))
    {ranges : List SlotRange} (hspaced : Spaced ranges) (hordered : Ordered ranges)
    (hcovers : ∀ slot, Covers ranges slot ↔
      Covers [⟨0, maxSlot⟩] slot ∧ ¬ Covers (s.shards.flatMap (·.slots)) slot) :
    ranges = s.getUnassignedSlots := by
  obtain ⟨hordered', -, hcovers'⟩ := ClusterState.getUnassignedSlots_spec h
  exact hspaced.eq_of_covers hordered (ClusterState.spaced_getUnassignedSlots h) hordered'
    fun slot => (hcovers slot).trans (hcovers' slot).symm

theorem covers_flatMap_slots {shards : List ShardState} {slot : Int} :
    Covers (shards.flatMap (·.slots)) slot ↔ ∃ shard ∈ shards, Covers shard.slots slot := by
  constructor
  · rintro ⟨r, hr, hin⟩
    obtain ⟨shard, hshard, hr⟩ := List.mem_flatMap.mp hr
    exact ⟨shard, hshard, r, hr, hin⟩
  · rintro ⟨shard, hshard, r, hr, hin⟩
    exact ⟨r, List.mem_flatMap.mpr ⟨shard, hshard, hr⟩, hin⟩

/-- The unassigned ranges are the complement of what the shards own, as the one canonical
list of it. -/
theorem getUnassignedSlots_complement {s : ClusterState}
    (h : Ordered (s.shards.flatMap (·.slots))) :
    (∀ slot, Covers s.getUnassignedSlots slot ↔
      (0 ≤ slot ∧ slot ≤ 16383) ∧ ¬ ∃ shard ∈ s.shards, Covers shard.slots slot) ∧
    (Ordered s.getUnassignedSlots ∧ Spaced s.getUnassignedSlots) ∧
    (∀ s' : ClusterState, (s'.shards.flatMap (·.slots)).Perm (s.shards.flatMap (·.slots)) →
      s'.getUnassignedSlots = s.getUnassignedSlots) ∧
    ∀ S : Sorter SlotRange, s.getUnassignedSlots =
      subtractRanges S [⟨0, maxSlot⟩] (s.shards.flatMap (·.slots)) := by
  obtain ⟨hordered, -, hcovers⟩ := ClusterState.getUnassignedSlots_spec h
  refine ⟨fun slot => ?_, ⟨hordered, ClusterState.spaced_getUnassignedSlots h⟩, fun s' hperm => ?_, fun S => ?_⟩
  · rw [hcovers, covers_singleton, covers_flatMap_slots]
    rfl
  · have h' : Ordered (s'.shards.flatMap (·.slots)) := fun r hr => h r (hperm.mem_iff.mp hr)
    obtain ⟨hordered', -, hcovers'⟩ := ClusterState.getUnassignedSlots_spec h'
    refine eq_getUnassignedSlots h (ClusterState.spaced_getUnassignedSlots h') hordered' fun slot => ?_
    rw [hcovers', covers_perm hperm]
  · have hfull : Ordered [⟨0, maxSlot⟩] := by decide
    exact (eq_getUnassignedSlots h (spaced_subtractRanges S _ _) (ordered_subtractRanges S hfull _)
      (covers_subtractRanges S _ h)).symm

/-- Two shards whose ranges overlap, are not sorted and run out of bounds. -/
def overlapping : ClusterState where
  nodes := []
  shards := [
    { id := ['a'], primaryID := [], slots := [⟨9000, 20000⟩, ⟨-5, 3⟩], nodes := [] },
    { id := ['b'], primaryID := [], slots := [⟨3, 5000⟩], nodes := [] }]
  pendingNodes := []

theorem getUnassignedSlots_complement_overlapping :
    overlapping.getUnassignedSlots = [⟨5001, 8999⟩] ∧
      overlapping.getUnassignedSlots =
        subtractRanges .insertion [⟨0, maxSlot⟩] [⟨9000, 20000⟩, ⟨-5, 3⟩, ⟨3, 5000⟩] := by
  have hordered : Ordered (overlapping.shards.flatMap (·.slots)) := by decide
  exact ⟨by decide, (getUnassignedSlots_complement hordered).2.2.2 .insertion⟩

/-! ## Chunks are canonical -/

theorem start_le_of_mem_collapse {start prev : Int} (h : start ≤ prev) {rest : List Int}
    (hrest : ∀ slot ∈ rest, prev < slot) (hr : r ∈ collapse start prev rest) : start ≤ r.start := by
  have hin : r.start ∈ expand (collapse start prev rest) :=
    mem_expand.mpr ⟨r, hr, le_rfl, ordered_collapse h rest r hr⟩
  rw [expand_collapse h] at hin
  rcases List.mem_append.mp hin with hin | hin
  · exact (SlotRange.mem_slots.mp hin).1
  · exact h.trans (hrest _ hin).le

/-- A run is closed only at a gap. -/
theorem spaced_collapse {start prev : Int} {rest : List Int}
    (hsorted : (prev :: rest).Pairwise (· < ·)) : Spaced (collapse start prev rest) := by
  induction rest generalizing start prev with
  | nil => exact List.pairwise_singleton _ _
  | cons slot rest ih =>
    obtain ⟨hprev, hrest⟩ := List.pairwise_cons.mp hsorted
    have hslot : prev < slot := hprev slot (by simp)
    unfold collapse
    split
    · exact ih hrest
    · refine List.pairwise_cons.mpr ⟨fun r hr => ?_, ih hrest⟩
      have := start_le_of_mem_collapse le_rfl (List.pairwise_cons.mp hrest).1 hr
      dsimp only
      omega

theorem insertionSort_of_ascending (h : slots.Pairwise (· < ·)) :
    slots.insertionSort (· ≤ ·) = slots :=
  (h.imp Int.le_of_lt).insertionSort_eq

theorem expand_slotsToRanges_of_ascending (h : slots.Pairwise (· < ·)) :
    expand (slotsToRanges slots) = slots := by
  rw [expand_slotsToRanges, insertionSort_of_ascending h]

theorem spaced_slotsToRanges (h : slots.Pairwise (· < ·)) : Spaced (slotsToRanges slots) := by
  unfold slotsToRanges
  rw [insertionSort_of_ascending h]
  cases slots with
  | nil => exact List.Pairwise.nil
  | cons first rest => exact spaced_collapse h

theorem slotsToRanges_slots (h : r.start ≤ r.stop) : slotsToRanges r.slots = [r] := by
  refine (spaced_slotsToRanges r.pairwise_slots).eq_of_covers (ordered_slotsToRanges _)
    (List.pairwise_singleton _ _) (List.forall_mem_singleton.mpr h) fun slot => ?_
  rw [covers_slotsToRanges, SlotRange.mem_slots, covers_singleton]

/-! ## The even split of free ranges -/

section Split

variable {unassigned : List SlotRange}

theorem ascending_evenShare (hapart : Apart unassigned) (n i : Nat) :
    (evenShare (expand unassigned) n i).Pairwise (· < ·) :=
  ((pairwise_expand hapart).sublist (List.drop_sublist _ _)).sublist (List.take_sublist _ _)

/-- The chunks one after the other list the free slots in order. -/
theorem flatMap_expand_splitUnassignedEvenly (hordered : Ordered unassigned)
    (hapart : Apart unassigned) (hn : 0 < n) :
    (splitUnassignedEvenly unassigned n).flatMap expand = expand unassigned := by
  have hchunk : ∀ i, expand (slotsToRanges (evenShare (expand unassigned) n i)) =
      evenShare (expand unassigned) n i :=
    fun i => expand_slotsToRanges_of_ascending (ascending_evenShare hapart n i)
  rw [splitUnassignedEvenly_eq_map hordered, List.flatMap_map]
  simp only [hchunk]
  exact flatMap_evenShare _ hn

theorem chunks_ascend (hordered : Ordered unassigned) (hapart : Apart unassigned) (hn : 0 < n) :
    (splitUnassignedEvenly unassigned n).Pairwise fun a b =>
      ∀ s s', Covers a s → Covers b s' → s < s' := by
  have hascend := pairwise_expand hapart
  rw [← flatMap_expand_splitUnassignedEvenly hordered hapart hn, List.pairwise_flatMap] at hascend
  exact hascend.2.imp fun hab s s' hs hs' => hab s (mem_expand.mpr hs) s' (mem_expand.mpr hs')

theorem chunks_canonical (hordered : Ordered unassigned) (hapart : Apart unassigned)
    {chunk : List SlotRange} (h : chunk ∈ splitUnassignedEvenly unassigned n) :
    Ordered chunk ∧ Spaced chunk := by
  rw [splitUnassignedEvenly_eq_map hordered] at h
  obtain ⟨i, -, rfl⟩ := List.mem_map.mp h
  exact ⟨ordered_slotsToRanges _, spaced_slotsToRanges (ascending_evenShare hapart n i)⟩

theorem chunk_sizes (hordered : Ordered unassigned) (n : Nat) :
    (splitUnassignedEvenly unassigned n).Pairwise fun a b =>
      countSlots b ≤ countSlots a ∧ countSlots a ≤ countSlots b + 1 := by
  rw [splitUnassignedEvenly_eq_map hordered]
  refine List.pairwise_map.mpr (List.pairwise_lt_range.imp_of_mem fun {i j} hi hj hij => ?_)
  rw [countSlots_slotsToRanges, countSlots_slotsToRanges,
    length_evenShare _ (List.mem_range.mp hi), length_evenShare _ (List.mem_range.mp hj)]
  have := shareSize_antitone (expand unassigned).length n hij.le
  omega

end Split

theorem evenShare_slots {i t : Nat} (hcount : r.count = t) (hn : n ≤ t) (hi : i < n) :
    evenShare r.slots n i =
      SlotRange.slots ⟨r.start + shareStart t n i, r.start + shareStart t n (i + 1) - 1⟩ := by
  have hlength : r.slots.length = t := by rw [SlotRange.length_slots, hcount, Int.toNat_natCast]
  have hnext := shareStart_succ t n i
  have hpos := shareSize_pos (by omega) hn i
  have hle := shareStart_le_add t n (i + 1) (n - (i + 1))
  rw [Nat.add_sub_cancel' hi, shareStart_self _ (by omega)] at hle
  rw [evenShare, hlength, SlotRange.slots_drop (by omega), SlotRange.slots_take]
  · dsimp only
    rw [show r.start + shareStart t n i + shareSize t n i = r.start + shareStart t n (i + 1) by omega]
  · unfold SlotRange.count at hcount ⊢
    dsimp only
    omega

/-! ## The full range -/

theorem shareRange_count (n i : Nat) : (shareRange n i).count = shareSize 16384 n i := by
  have := shareStart_succ 16384 n i
  unfold shareRange SlotRange.count
  dsimp only
  omega

section FullRange

variable {n i : Nat}

theorem evenShare_full (hn : n ≤ 16384) (hi : i < n) :
    evenShare (expand [⟨0, maxSlot⟩]) n i = (shareRange n i).slots := by
  rw [expand_cons, show expand [] = [] from rfl, List.append_nil,
    evenShare_slots (r := ⟨0, maxSlot⟩) (t := 16384) rfl hn hi]
  simp only [shareRange, Int.zero_add]

theorem getElem?_splitUnassignedEvenly_full (hn : n ≤ 16384) (hi : i < n) :
    (splitUnassignedEvenly [⟨0, maxSlot⟩] n)[i]? = some [shareRange n i] := by
  have hpos := shareSize_pos (by omega) hn i
  have hnext := shareStart_succ 16384 n i
  have hrange : (shareRange n i).start ≤ (shareRange n i).stop := by
    unfold shareRange
    dsimp only
    omega
  rw [splitUnassignedEvenly_eq_map (by decide), List.getElem?_map, List.getElem?_range hi,
    Option.map_some, evenShare_full hn hi, slotsToRanges_slots hrange]

theorem getElem?_targetSlotsPerShard (hi : i < n) :
    (targetSlotsPerShard n)[i]? = some (shareSize 16384 n i : Int) := by
  unfold targetSlotsPerShard
  rw [if_neg (by omega), Int.toNat_natCast, List.getElem?_map, List.getElem?_range hi,
    Option.map_some, Option.some.injEq]
  have hdiv : totalSlots / n = (16384 / n : Nat) := rfl
  have hmod : totalSlots % n = (16384 % n : Nat) := rfl
  rw [hdiv, hmod]
  unfold shareSize
  split <;> split <;> omega

end FullRange

/-- Splitting partitions any free ranges evenly and in order, and on the full range it gives
the ranges of the restore path with the sizes the rebalancer aims at. -/
theorem even_splits_agree :
    (∀ (unassigned : List SlotRange) (n : Nat), Ordered unassigned → Apart unassigned → 1 ≤ n →
      (splitUnassignedEvenly unassigned n).length = n ∧
      (splitUnassignedEvenly unassigned n).flatMap expand = expand unassigned ∧
      ((splitUnassignedEvenly unassigned n).Pairwise fun a b =>
        ∀ s s', Covers a s → Covers b s' → s < s') ∧
      (∀ chunk ∈ splitUnassignedEvenly unassigned n, Ordered chunk ∧ Spaced chunk) ∧
      (splitUnassignedEvenly unassigned n).Pairwise fun a b =>
        countSlots b ≤ countSlots a ∧ countSlots a ≤ countSlots b + 1) ∧
    ∀ n i : Nat, 1 ≤ n → n ≤ 16384 → i < n → ∃ r,
      (splitUnassignedEvenly [⟨0, maxSlot⟩] n)[i]? = some [r] ∧
      (evenSplitRanges n)[i]? = some r ∧ (targetSlotsPerShard n)[i]? = some r.count := by
  refine ⟨fun unassigned n hordered hapart hn => ?_, fun n i _ hn hi => ?_⟩
  · exact ⟨splitUnassignedEvenly_length unassigned n,
      flatMap_expand_splitUnassignedEvenly hordered hapart hn, chunks_ascend hordered hapart hn,
      fun _ h => chunks_canonical hordered hapart h, chunk_sizes hordered n⟩
  · refine ⟨shareRange n i, getElem?_splitUnassignedEvenly_full hn hi, getElem?_evenSplitRanges (by simpa using hi), ?_⟩
    rw [getElem?_targetSlotsPerShard hi, shareRange_count]

/-- Seven free slots in two ranges for three primaries, and the full range for three. -/
theorem even_splits_agree_three :
    (splitUnassignedEvenly [⟨0, 2⟩, ⟨5, 8⟩] 3).flatMap expand = [0, 1, 2, 5, 6, 7, 8] ∧
      splitUnassignedEvenly [⟨0, 2⟩, ⟨5, 8⟩] 3 = [[⟨0, 2⟩], [⟨5, 6⟩], [⟨7, 8⟩]] ∧
      ∃ r, (splitUnassignedEvenly [⟨0, maxSlot⟩] 3)[1]? = some [r] ∧
        (evenSplitRanges 3)[1]? = some r ∧ (targetSlotsPerShard 3)[1]? = some r.count := by
  have hordered : Ordered [⟨0, 2⟩, ⟨5, 8⟩] := by decide
  have hapart : Apart [⟨0, 2⟩, ⟨5, 8⟩] := by simp [Apart]
  exact ⟨(even_splits_agree.1 _ 3 hordered hapart (by decide)).2.1, by decide,
    even_splits_agree.2 3 1 (by decide) (by decide) (by decide)⟩

end ValkeyOperator.Cluster

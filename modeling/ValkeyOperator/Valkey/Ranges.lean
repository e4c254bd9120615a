import ValkeyOperator.Lib.SortFunc
import ValkeyOperator.Valkey.Slots

/-! Normal forms of slot ranges (`NormalizeSlotRanges` and `SubtractRanges` of
`pkg/valkey/slots.go`).

Sorting and merging changes the list of ranges but not the slots it covers, also when
some range ends before it starts and so covers none. What comes out is sorted with a gap
between any two ranges, and a list of that form is determined by the slots it covers. -/

namespace ValkeyOperator.Valkey
open Text

variable {ranges remove rest : List SlotRange} {last r : SlotRange}

/-- The order by start, then by end. -/
def compareStartEnd (a b : SlotRange) : Int :=
  if a.start ≠ b.start then a.start - b.start else a.stop - b.stop

/-- Merge each range into the last one if it starts within or right after it. -/
def mergeRanges (last : SlotRange) : List SlotRange → List SlotRange
  | [] => [last]
  | r :: rest =>
    if r.start ≤ last.stop + 1 then
      mergeRanges (if r.stop > last.stop then { last with stop := r.stop } else last) rest
    else last :: mergeRanges r rest

def normalizeSlotRanges (S : Sorter SlotRange) (ranges : List SlotRange) : List SlotRange :=
  match S.sort compareStartEnd ranges with
  | [] => []
  | first :: rest => mergeRanges first rest

def subtractRanges (S : Sorter SlotRange) (base remove : List SlotRange) : List SlotRange :=
  normalizeSlotRanges S ((normalizeSlotRanges S remove).foldl
    (fun current rm => current.flatMap fun b => subtractSlotRange b rm)
    (normalizeSlotRanges S base))

theorem compares_compareStartEnd : Compares compareStartEnd where
  swap a b := by
    unfold compareStartEnd
    split <;> split <;> omega
  trans a b c := by
    unfold compareStartEnd
    split <;> split <;> split <;> omega

theorem start_le_of_compareStartEnd {r' : SlotRange} (h : compareStartEnd r r' ≤ 0) :
    r.start ≤ r'.start := by
  unfold compareStartEnd at h
  split at h <;> omega

theorem covers_mergeRanges (last : SlotRange)
    (hsorted : (last :: rest).Pairwise fun r r' => r.start ≤ r'.start) (s : Int) :
    Covers (mergeRanges last rest) s ↔ Covers (last :: rest) s := by
  induction rest generalizing last with
  | nil => rfl
  | cons r rest ih =>
    obtain ⟨hlast, hrest⟩ := List.pairwise_cons.mp hsorted
    have hstart : last.start ≤ r.start := hlast r (by simp)
    unfold mergeRanges
    split
    · rename_i hjoin
      rw [ih]
      · rw [covers_cons, covers_cons, covers_cons, ← or_assoc]
        refine or_congr_left ?_
        split
        · dsimp only
          omega
        · omega
      · -- the merged range starts where the last one did
        refine List.pairwise_cons.mpr ⟨fun r' hr' => ?_, (List.pairwise_cons.mp hrest).2⟩
        have := hlast r' (by simp [hr'])
        split <;> exact this
    · rw [covers_cons, ih r hrest, ← covers_cons]

theorem ordered_mergeRanges (h : Ordered (last :: rest)) : Ordered (mergeRanges last rest) := by
  induction rest generalizing last with
  | nil => exact h
  | cons r rest ih =>
    obtain ⟨hlast, hrest⟩ := List.forall_mem_cons.mp h
    unfold mergeRanges
    split
    · refine ih (List.forall_mem_cons.mpr ⟨?_, (List.forall_mem_cons.mp hrest).2⟩)
      split
      · dsimp only
        omega
      · exact hlast
    · exact List.forall_mem_cons.mpr ⟨hlast, ih hrest⟩

/-! ## Canonical lists -/

/-- Between two ranges there is at least one slot that neither covers. -/
def Spaced (ranges : List SlotRange) : Prop := ranges.Pairwise fun a b => a.stop + 1 < b.start

instance (ranges : List SlotRange) : Decidable (Spaced ranges) :=
  inferInstanceAs (Decidable (ranges.Pairwise fun a b => a.stop + 1 < b.start))

/-- Nothing starts before the range that merging starts with. -/
theorem start_le_of_mem_mergeRanges
    (hsorted : (last :: rest).Pairwise fun r r' => r.start ≤ r'.start)
    (hr : r ∈ mergeRanges last rest) : last.start ≤ r.start := by
  induction rest generalizing last with
  | nil => exact (List.mem_singleton.mp hr) ▸ le_rfl
  | cons next rest ih =>
    obtain ⟨hlast, hrest⟩ := List.pairwise_cons.mp hsorted
    unfold mergeRanges at hr
    split at hr
    · -- the merged range starts where the last one did
      have hmerged := ih (List.pairwise_cons.mpr ⟨fun r' hr' => ?_, (List.pairwise_cons.mp hrest).2⟩) hr
      · split at hmerged <;> exact hmerged
      · have := hlast r' (by simp [hr'])
        split <;> exact this
    · rcases List.mem_cons.mp hr with rfl | hr
      · exact le_rfl
      · exact (hlast next (by simp)).trans (ih hrest hr)

theorem spaced_mergeRanges (hsorted : (last :: rest).Pairwise fun r r' => r.start ≤ r'.start) :
    Spaced (mergeRanges last rest) := by
  induction rest generalizing last with
  | nil => exact List.pairwise_singleton _ _
  | cons next rest ih =>
    obtain ⟨hlast, hrest⟩ := List.pairwise_cons.mp hsorted
    unfold mergeRanges
    split
    · refine ih (List.pairwise_cons.mpr ⟨fun r' hr' => ?_, (List.pairwise_cons.mp hrest).2⟩)
      have := hlast r' (by simp [hr'])
      split <;> exact this
    · rename_i hgap
      refine List.pairwise_cons.mpr ⟨fun r hr => ?_, ih hrest⟩
      have := start_le_of_mem_mergeRanges hrest hr
      omega

/-- The first range of a spaced list starts at the least slot covered. -/
theorem Spaced.start_le (h : Spaced (r :: rest)) (hordered : Ordered (r :: rest)) {s : Int}
    (hs : Covers (r :: rest) s) : r.start ≤ s := by
  obtain ⟨r', hr', hin⟩ := hs
  rcases List.mem_cons.mp hr' with rfl | hr'
  · exact hin.1
  · have hgap := (List.pairwise_cons.mp h).1 r' hr'
    have hle := hordered r (by simp)
    omega

/-- Right behind its first range a spaced list covers nothing. -/
theorem Spaced.not_covers_behind (h : Spaced (r :: rest)) : ¬ Covers (r :: rest) (r.stop + 1) := by
  rintro ⟨r', hr', hin⟩
  rcases List.mem_cons.mp hr' with rfl | hr'
  · omega
  · have hgap := (List.pairwise_cons.mp h).1 r' hr'
    omega

/-- What the rest of a spaced list covers lies behind the first range. -/
theorem Spaced.covers_tail (h : Spaced (r :: rest)) (s : Int) :
    Covers rest s ↔ Covers (r :: rest) s ∧ r.stop < s := by
  rw [covers_cons]
  constructor
  · intro hs
    obtain ⟨r', hr', hin⟩ := hs
    have hgap := (List.pairwise_cons.mp h).1 r' hr'
    exact ⟨.inr ⟨r', hr', hin⟩, by omega⟩
  · rintro ⟨hin | hs, hlt⟩
    · omega
    · exact hs

/-- Spaced lists that cover the same slots end their first ranges at the same slot. -/
theorem Spaced.stop_le {r' : SlotRange} {rest' : List SlotRange} (h : Spaced (r :: rest))
    (hr : r.start ≤ r.stop) (hstart : r'.start = r.start)
    (hcovers : ∀ s, Covers (r' :: rest') s → Covers (r :: rest) s) : r'.stop ≤ r.stop := by
  by_contra hlt
  exact h.not_covers_behind (hcovers _ ⟨r', by simp, by omega, by omega⟩)

theorem Spaced.eq_of_covers {a b : List SlotRange} (ha : Spaced a) (ha' : Ordered a) (hb : Spaced b)
    (hb' : Ordered b) (h : ∀ s, Covers a s ↔ Covers b s) : a = b := by
  induction a generalizing b with
  | nil =>
    cases b with
    | nil => rfl
    | cons r rest =>
      obtain ⟨r', hr', -⟩ := (h r.start).mpr ⟨r, by simp, le_rfl, hb' r (by simp)⟩
      cases hr'
  | cons r rest ih =>
    cases b with
    | nil =>
      obtain ⟨r', hr', -⟩ := (h r.start).mp ⟨r, by simp, le_rfl, ha' r (by simp)⟩
      cases hr'
    | cons r' rest' =>
      have hr := ha' r (by simp)
      have hr' := hb' r' (by simp)
      have hle : r'.start ≤ r.start := hb.start_le hb' ((h _).mp ⟨r, by simp, le_rfl, hr⟩)
      have hge : r.start ≤ r'.start := ha.start_le ha' ((h _).mpr ⟨r', by simp, le_rfl, hr'⟩)
      have hstart : r'.start = r.start := le_antisymm hle hge
      have hstop : r'.stop = r.stop := le_antisymm
        (ha.stop_le hr hstart fun s hs => (h s).mpr hs)
        (hb.stop_le hr' hstart.symm fun s hs => (h s).mp hs)
      have hhead : r' = r := by
        cases r
        cases r'
        cases hstart
        cases hstop
        rfl
      subst hhead
      have htail : ∀ s, Covers rest s ↔ Covers rest' s := fun s => by
        rw [ha.covers_tail, hb.covers_tail, h s]
      rw [ih (List.pairwise_cons.mp ha).2 (List.forall_mem_cons.mp ha').2 (List.pairwise_cons.mp hb).2
        (List.forall_mem_cons.mp hb').2 htail]

theorem covers_perm {a b : List SlotRange} (h : a.Perm b) {s : Int} : Covers a s ↔ Covers b s :=
  exists_congr fun _ => and_congr_left' h.mem_iff

/-! ## Subtracting range by range -/

theorem Spaced.apart (h : Spaced ranges) : Apart ranges :=
  h.imp fun hgap => by omega

theorem spaced_subtractSlotRange {base remove : SlotRange} (h : remove.start ≤ remove.stop) :
    Spaced (subtractSlotRange base remove) := by
  unfold subtractSlotRange Spaced
  split
  · exact List.pairwise_singleton _ _
  · split <;> split <;> simp
    omega

theorem spaced_flatMap_subtractSlotRange {remove : SlotRange} (hr : remove.start ≤ remove.stop)
    (h : Spaced ranges) : Spaced (ranges.flatMap fun base => subtractSlotRange base remove) := by
  refine List.pairwise_flatMap.mpr ⟨fun base _ => spaced_subtractSlotRange hr, ?_⟩
  refine h.imp fun {a b} hab x hx y hy => ?_
  have hxa := mem_subtractSlotRange hx
  have hyb := mem_subtractSlotRange hy
  omega

theorem ordered_foldl_subtract {current : List SlotRange} (h : Ordered current)
    (remove : List SlotRange) :
    Ordered (remove.foldl (fun current rm => current.flatMap fun b => subtractSlotRange b rm)
      current) := by
  induction remove generalizing current with
  | nil => exact h
  | cons rm rest ih =>
    refine ih fun r hr => ?_
    obtain ⟨b, hb, hr⟩ := List.mem_flatMap.mp hr
    exact (mem_subtractSlotRange hr).2.2 (h b hb)

theorem covers_foldl_subtract (h : Ordered remove) (current : List SlotRange) (s : Int) :
    Covers (remove.foldl (fun current rm => current.flatMap fun b => subtractSlotRange b rm)
      current) s ↔ Covers current s ∧ ¬ Covers remove s := by
  induction remove generalizing current with
  | nil => simp [Covers]
  | cons rm rest ih =>
    obtain ⟨hrm, hrest⟩ := List.forall_mem_cons.mp h
    have hone : Covers (current.flatMap fun b => subtractSlotRange b rm) s ↔
        Covers current s ∧ ¬ (rm.start ≤ s ∧ s ≤ rm.stop) := by
      constructor
      · rintro ⟨r, hr, hin⟩
        obtain ⟨b, hb, hr⟩ := List.mem_flatMap.mp hr
        have hleft := (covers_subtractSlotRange hrm s).mp ⟨r, hr, hin⟩
        exact ⟨⟨b, hb, hleft.1⟩, hleft.2⟩
      · rintro ⟨⟨b, hb, hin⟩, hout⟩
        obtain ⟨r, hr, hrin⟩ := (covers_subtractSlotRange hrm s).mpr ⟨hin, hout⟩
        exact ⟨r, List.mem_flatMap.mpr ⟨b, hb, hr⟩, hrin⟩
    rw [List.foldl_cons, ih hrest, hone, covers_cons, not_or, and_assoc]

/-- Cutting out ranges leaves the fragments apart, so nothing has to be merged. -/
theorem spaced_foldl_subtract (h : Ordered remove) {current : List SlotRange}
    (hcurrent : Spaced current) :
    Spaced (remove.foldl (fun current rm => current.flatMap fun b => subtractSlotRange b rm)
      current) := by
  induction remove generalizing current with
  | nil => exact hcurrent
  | cons rm rest ih =>
    obtain ⟨hrm, hrest⟩ := List.forall_mem_cons.mp h
    exact ih hrest (spaced_flatMap_subtractSlotRange hrm hcurrent)

section Normalize

variable (S : Sorter SlotRange)

theorem covers_normalizeSlotRanges (ranges : List SlotRange) (s : Int) :
    Covers (normalizeSlotRanges S ranges) s ↔ Covers ranges s := by
  have hperm := S.perm compareStartEnd ranges
  have hsorted := (S.sorted compareStartEnd compares_compareStartEnd ranges).imp
    start_le_of_compareStartEnd
  rw [← covers_perm hperm]
  unfold normalizeSlotRanges
  generalize S.sort compareStartEnd ranges = sorted at hsorted
  cases sorted with
  | nil => rfl
  | cons first rest => exact covers_mergeRanges first hsorted s

theorem ordered_normalizeSlotRanges (h : Ordered ranges) :
    Ordered (normalizeSlotRanges S ranges) := by
  have hsorted : Ordered (S.sort compareStartEnd ranges) :=
    fun r hr => h r (S.mem_sort.mp hr)
  unfold normalizeSlotRanges
  generalize S.sort compareStartEnd ranges = sorted at hsorted
  cases sorted with
  | nil => exact hsorted
  | cons first rest => exact ordered_mergeRanges hsorted

theorem spaced_normalizeSlotRanges (ranges : List SlotRange) :
    Spaced (normalizeSlotRanges S ranges) := by
  have hsorted := (S.sorted compareStartEnd compares_compareStartEnd ranges).imp
    start_le_of_compareStartEnd
  unfold normalizeSlotRanges
  generalize S.sort compareStartEnd ranges = sorted at hsorted
  cases sorted with
  | nil => exact List.Pairwise.nil
  | cons first rest => exact spaced_mergeRanges hsorted

/-- What is left are the slots of `base` that `remove` does not cover. -/
theorem covers_subtractRanges (base : List SlotRange) (h : Ordered remove) (s : Int) :
    Covers (subtractRanges S base remove) s ↔ Covers base s ∧ ¬ Covers remove s := by
  unfold subtractRanges
  rw [covers_normalizeSlotRanges, covers_foldl_subtract (ordered_normalizeSlotRanges S h),
    covers_normalizeSlotRanges, covers_normalizeSlotRanges]

theorem ordered_subtractRanges {base : List SlotRange} (h : Ordered base)
    (remove : List SlotRange) : Ordered (subtractRanges S base remove) :=
  ordered_normalizeSlotRanges S (ordered_foldl_subtract (ordered_normalizeSlotRanges S h) _)

theorem spaced_subtractRanges (base remove : List SlotRange) :
    Spaced (subtractRanges S base remove) := spaced_normalizeSlotRanges S _

/-- Subtracting is set difference, with a canonical list for the slots that are left. -/
theorem subtractRanges_canonical {base remove : List SlotRange} (hbase : Ordered base)
    (hremove : Ordered remove) :
    (∀ s, Covers (subtractRanges S base remove) s ↔ Covers base s ∧ ¬ Covers remove s) ∧
    (Ordered (subtractRanges S base remove) ∧ Spaced (subtractRanges S base remove)) ∧
    (∀ (S' : Sorter SlotRange) (base' remove' : List SlotRange), base'.Perm base →
      remove'.Perm remove → subtractRanges S' base' remove' = subtractRanges S base remove) ∧
    ∀ S' : Sorter SlotRange, normalizeSlotRanges S' (subtractRanges S base remove) =
      subtractRanges S base remove := by
  have hordered := ordered_subtractRanges S hbase remove
  have hspaced := spaced_subtractRanges S base remove
  refine ⟨covers_subtractRanges S base hremove, ⟨hordered, hspaced⟩, ?_, fun S' => ?_⟩
  · intro S' base' remove' hpbase hpremove
    have hbase' : Ordered base' := fun r hr => hbase r (hpbase.mem_iff.mp hr)
    have hremove' : Ordered remove' := fun r hr => hremove r (hpremove.mem_iff.mp hr)
    refine (spaced_subtractRanges S' base' remove').eq_of_covers (ordered_subtractRanges S' hbase' _)
      hspaced hordered fun s => ?_
    rw [covers_subtractRanges S' base' hremove', covers_subtractRanges S base hremove,
      covers_perm hpbase, covers_perm hpremove]
  · exact (spaced_normalizeSlotRanges S' _).eq_of_covers (ordered_normalizeSlotRanges S' hordered)
      hspaced hordered (covers_normalizeSlotRanges S' _)

end Normalize

/-- Overlapping, unsorted and duplicate ranges. -/
theorem subtractRanges_canonical_overlapping :
    Covers (subtractRanges .insertion [⟨10, 20⟩, ⟨0, 12⟩, ⟨10, 20⟩] [⟨15, 15⟩, ⟨3, 5⟩]) 14 ∧
      ¬ Covers (subtractRanges .insertion [⟨10, 20⟩, ⟨0, 12⟩, ⟨10, 20⟩] [⟨15, 15⟩, ⟨3, 5⟩]) 15 := by
  have hcovers := (subtractRanges_canonical .insertion
    (by decide : Ordered [⟨10, 20⟩, ⟨0, 12⟩, ⟨10, 20⟩]) (by decide : Ordered [⟨15, 15⟩, ⟨3, 5⟩])).1
  exact ⟨(hcovers 14).mpr (by decide), fun h => absurd ((hcovers 15).mp h) (by decide)⟩

end ValkeyOperator.Valkey

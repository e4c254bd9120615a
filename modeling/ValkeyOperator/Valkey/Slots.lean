import Mathlib.Data.List.Sort
import ValkeyOperator.Lib.Action
import ValkeyOperator.Lib.EvenSplit

/-! Hash slots and slot ranges (`pkg/valkey/slots.go`).

Ranges are inclusive intervals of integers. The set of slots a list of ranges
covers is `Covers`; a list of ranges whose starts do not exceed their ends also
has an expansion `expand` into single slots, which the splitting functions cut
from the front: `takeSlots` and `removeLowestSlots` are `take` and `drop` of it. -/

namespace ValkeyOperator.Valkey
open Text

variable {s : Int} {ranges unassigned : List SlotRange} {r : SlotRange}

def totalSlots : Int := 16384

def maxSlot : Int := totalSlots - 1

/-- The ends are integers of 64 bits in the source. They are unbounded here: what is read
is not checked, but a slot that can be assigned is one of 0 to `maxSlot`. -/
structure SlotRange where
  start : Int
  stop : Int
deriving DecidableEq

/-- Both ends are slots that can be assigned. -/
def SlotRange.Assignable (r : SlotRange) : Prop :=
  (0 ≤ r.start ∧ r.start ≤ maxSlot) ∧ 0 ≤ r.stop ∧ r.stop ≤ maxSlot

def SlotRange.toStr (r : SlotRange) : Str :=
  if r.start = r.stop then itoa r.start else itoa r.start ++ '-' :: itoa r.stop

def SlotRange.count (r : SlotRange) : Int := r.stop - r.start + 1

/-- The ranges as `0-100,500-600`. -/
def formatSlotRanges (ranges : List SlotRange) : Str :=
  join [','] (ranges.map SlotRange.toStr)

def countSlots (ranges : List SlotRange) : Int := (ranges.map SlotRange.count).sum

theorem SlotRange.Assignable.count_le (h : r.Assignable) :
    -totalSlots ≤ r.count ∧ r.count ≤ totalSlots := by
  unfold SlotRange.Assignable maxSlot at h
  unfold SlotRange.count
  omega

/-- Counting assignable ranges does not leave 64 bits. -/
theorem countSlots_fits (h : ∀ r ∈ ranges, r.Assignable) (hlength : ranges.length < 2 ^ 49) :
    -2 ^ 63 ≤ countSlots ranges ∧ countSlots ranges < 2 ^ 63 := by
  suffices -totalSlots * ranges.length ≤ countSlots ranges ∧
      countSlots ranges ≤ totalSlots * ranges.length by
    unfold totalSlots at this
    omega
  clear hlength
  induction ranges with
  | nil => simp [countSlots]
  | cons r rest ih =>
    obtain ⟨hlow, hhigh⟩ := ih fun r' hr' => h r' (List.mem_cons_of_mem _ hr')
    have hcount := (h r List.mem_cons_self).count_le
    unfold countSlots at hlow hhigh ⊢
    unfold totalSlots at hlow hhigh hcount ⊢
    rw [List.map_cons, List.sum_cons, List.length_cons]
    omega

/-- The slots of one range in ascending order. -/
def SlotRange.slots (r : SlotRange) : List Int :=
  (List.range r.count.toNat).map fun i : Nat => r.start + i

/-- Append slots of each range in turn until `n` have been collected. -/
def takeSlotsFrom (n : Nat) : List SlotRange → List Int → List Int
  | [], out => out
  | r :: rest, out =>
    let out' := out ++ r.slots.take (n - out.length)
    if out'.length = n then out' else takeSlotsFrom n rest out'

def takeSlots (ranges : List SlotRange) (n : Int) : List Int :=
  if n ≤ 0 then [] else takeSlotsFrom n.toNat ranges []

def removeLowestSlots : List SlotRange → Int → List SlotRange
  | [], _ => []
  | r :: rest, n =>
    if n ≥ r.count then removeLowestSlots rest (n - r.count)
    else if n > 0 then ⟨r.start + n, r.stop⟩ :: removeLowestSlots rest 0
    else r :: removeLowestSlots rest n

/-- Close the run `start..prev` at the first slot that does not continue it. -/
def collapse (start prev : Int) : List Int → List SlotRange
  | [] => [⟨start, prev⟩]
  | slot :: rest =>
    if slot = prev + 1 then collapse start slot rest
    else ⟨start, prev⟩ :: collapse slot slot rest

def slotsToRanges (slots : List Int) : List SlotRange :=
  match slots.insertionSort (· ≤ ·) with
  | [] => []
  | first :: rest => collapse first first rest

/-- Chunks `i`, `i+1`, …, `i+k-1` of a split into shares of `base`, one more for
the first `rem`. -/
def splitFrom (base rem : Int) : Nat → Nat → List SlotRange → List (List SlotRange)
  | _, 0, _ => []
  | i, k + 1, unassigned =>
    let want := if (i : Int) < rem then base + 1 else base
    if want = 0 then [] :: splitFrom base rem (i + 1) k unassigned
    else slotsToRanges (takeSlots unassigned want) ::
      splitFrom base rem (i + 1) k (removeLowestSlots unassigned want)

def splitUnassignedEvenly (unassigned : List SlotRange) (n : Nat) : List (List SlotRange) :=
  let total := countSlots unassigned
  splitFrom (total.tdiv n) (total.tmod n) 0 n unassigned

/-- What is left of `base` without `remove`. -/
def subtractSlotRange (base remove : SlotRange) : List SlotRange :=
  if remove.stop < base.start ∨ remove.start > base.stop then [base]
  else
    (if remove.start > base.start then [⟨base.start, remove.start - 1⟩] else []) ++
    (if remove.stop < base.stop then [⟨remove.stop + 1, base.stop⟩] else [])

/-! ## Parsing the slot words of a node line -/

def atoi (s : Str) : Except Str Int := parseInt "strconv.Atoi" s

theorem atoi_itoa {n : Int} (h : 0 ≤ n) (h' : n < 2 ^ 31) : atoi (itoa n) = .ok n :=
  parseInt_itoa _ (by omega) (by omega)

private def badRange (what s cause : Str) : Err :=
  { msg := "invalid " ++ what ++ " " ++ quote s ++ ": " ++ cause }

/-- One slot word, `5` or `0-5461`. -/
def parseSlotRange (s : Str) : Except Err SlotRange :=
  match cut '-' s with
  | (_, none) =>
    match atoi s with
    | .error e => .error (badRange "slot" s e)
    | .ok n => .ok ⟨n, n⟩
  | (start, some stop) =>
    match atoi start, atoi stop with
    | .error e, _ => .error (badRange "slot range" s e)
    | _, .error e => .error (badRange "slot range" s e)
    | .ok lo, .ok hi =>
      if lo > hi then .error (badRange "slot range" s "start > end")
      else .ok ⟨lo, hi⟩

/-- The slot words of a line; importing and migrating markers are skipped, and
one unreadable word fails the lot. -/
def parseSlotRanges : List Str → Except Err (List SlotRange)
  | [] => .ok []
  | f :: rest =>
    if hasPrefix f ['['] then parseSlotRanges rest
    else
      match parseSlotRange f with
      | .error e => .error e
      | .ok r =>
        match parseSlotRanges rest with
        | .error e => .error e
        | .ok rs => .ok (r :: rs)

/-! ## Ranges as sets of slots -/

/-- Some range of the list contains the slot. -/
def Covers (ranges : List SlotRange) (s : Int) : Prop := ∃ r ∈ ranges, r.start ≤ s ∧ s ≤ r.stop

instance (ranges : List SlotRange) (s : Int) : Decidable (Covers ranges s) :=
  inferInstanceAs (Decidable (∃ r ∈ ranges, r.start ≤ s ∧ s ≤ r.stop))

/-- No range ends before it starts. -/
def Ordered (ranges : List SlotRange) : Prop := ∀ r ∈ ranges, r.start ≤ r.stop

instance (ranges : List SlotRange) : Decidable (Ordered ranges) :=
  inferInstanceAs (Decidable (∀ r ∈ ranges, r.start ≤ r.stop))

def expand (ranges : List SlotRange) : List Int := ranges.flatMap SlotRange.slots

@[simp] theorem expand_cons (r : SlotRange) (rest : List SlotRange) :
    expand (r :: rest) = r.slots ++ expand rest := rfl

@[simp] theorem SlotRange.length_slots (r : SlotRange) : r.slots.length = r.count.toNat := by
  simp [SlotRange.slots]

theorem SlotRange.mem_slots : s ∈ r.slots ↔ r.start ≤ s ∧ s ≤ r.stop := by
  simp only [SlotRange.slots, SlotRange.count, List.mem_map, List.mem_range]
  constructor
  · intro h
    obtain ⟨i, hi, rfl⟩ := h
    omega
  · intro h
    exact ⟨(s - r.start).toNat, by omega, by omega⟩

theorem mem_expand : s ∈ expand ranges ↔ Covers ranges s := by
  simp [expand, Covers, SlotRange.mem_slots]

theorem length_expand (h : Ordered ranges) :
    ((expand ranges).length : Int) = countSlots ranges := by
  induction ranges with
  | nil => rfl
  | cons r rest ih =>
    have hr : r.start ≤ r.stop := h r (by simp)
    have hrest := ih fun x hx => h x (by simp [hx])
    simp only [expand_cons, List.length_append, SlotRange.length_slots, countSlots, List.map_cons,
      List.sum_cons] at hrest ⊢
    unfold SlotRange.count at hrest ⊢
    omega

/-! ## Cutting from the front -/

theorem takeSlotsFrom_eq (n : Nat) (ranges : List SlotRange) (out : List Int)
    (h : out.length ≤ n) :
    takeSlotsFrom n ranges out = out ++ (expand ranges).take (n - out.length) := by
  induction ranges generalizing out with
  | nil => simp [takeSlotsFrom, expand]
  | cons r rest ih =>
    unfold takeSlotsFrom
    rw [expand_cons, List.take_append]
    dsimp only
    have hlen : (out ++ r.slots.take (n - out.length)).length =
        out.length + min (n - out.length) r.slots.length := by simp
    split
    · rename_i hfull
      rw [hlen] at hfull
      rw [show n - out.length - r.slots.length = 0 by omega]
      simp
    · rename_i hroom
      rw [hlen] at hroom
      rw [ih _ (by omega), hlen, List.append_assoc]
      congr 3
      omega

theorem takeSlots_eq (ranges : List SlotRange) (n : Int) :
    takeSlots ranges n = (expand ranges).take n.toNat := by
  unfold takeSlots
  split
  · rw [show n.toNat = 0 by omega, List.take_zero]
  · rw [takeSlotsFrom_eq _ _ _ (by simp)]
    simp

theorem removeLowestSlots_zero (ranges : List SlotRange) (h : Ordered ranges) :
    removeLowestSlots ranges 0 = ranges := by
  induction ranges with
  | nil => rfl
  | cons r rest ih =>
    have hr : r.start ≤ r.stop := h r (by simp)
    unfold removeLowestSlots SlotRange.count
    rw [if_neg (by omega), if_neg (by omega), ih fun x hx => h x (by simp [hx])]

theorem SlotRange.slots_drop {n : Nat} (h : n < r.count) :
    r.slots.drop n = SlotRange.slots ⟨r.start + n, r.stop⟩ := by
  unfold SlotRange.slots SlotRange.count at *
  apply List.ext_getElem
  · simp
    omega
  · intro i _ _
    simp
    omega

theorem SlotRange.slots_take {n : Nat} (h : n ≤ r.count) :
    r.slots.take n = SlotRange.slots ⟨r.start, r.start + n - 1⟩ := by
  unfold SlotRange.slots SlotRange.count at *
  apply List.ext_getElem
  · simp
    omega
  · intro i _ _
    simp

theorem expand_removeLowestSlots (ranges : List SlotRange) (h : Ordered ranges) (n : Nat) :
    expand (removeLowestSlots ranges n) = (expand ranges).drop n := by
  induction ranges generalizing n with
  | nil => simp [removeLowestSlots, expand]
  | cons r rest ih =>
    have hr : r.start ≤ r.stop := h r (by simp)
    have hrest : Ordered rest := fun x hx => h x (by simp [hx])
    have hcount : 0 < r.count := by unfold SlotRange.count; omega
    unfold removeLowestSlots
    rw [expand_cons, List.drop_append, SlotRange.length_slots]
    split
    · have hdrop : r.slots.drop n = [] :=
        List.drop_eq_nil_of_le (by rw [SlotRange.length_slots]; omega)
      rw [show (n : Int) - r.count = ((n - r.count.toNat : Nat) : Int) by omega, ih hrest, hdrop,
        List.nil_append]
    · rename_i hlt
      rw [show n - r.count.toNat = 0 by omega, List.drop_zero]
      split
      · rw [expand_cons, removeLowestSlots_zero rest hrest, SlotRange.slots_drop (by omega)]
      · rw [show n = 0 by omega, Int.natCast_zero, removeLowestSlots_zero rest hrest]
        rfl

theorem ordered_removeLowestSlots (ranges : List SlotRange) (h : Ordered ranges) (n : Int) :
    Ordered (removeLowestSlots ranges n) := by
  induction ranges generalizing n with
  | nil => exact h
  | cons r rest ih =>
    have hr : r.start ≤ r.stop := h r (by simp)
    have hrest : Ordered rest := fun x hx => h x (by simp [hx])
    unfold removeLowestSlots
    split
    · exact ih hrest _
    · rename_i hlt
      unfold SlotRange.count at hlt
      split
      · exact List.forall_mem_cons.mpr ⟨by dsimp only; omega, ih hrest 0⟩
      · exact List.forall_mem_cons.mpr ⟨hr, ih hrest n⟩

/-! ## Splitting -/

theorem covers_singleton : Covers [r] s ↔ r.start ≤ s ∧ s ≤ r.stop := by
  simp [Covers]

theorem covers_cons {rest : List SlotRange} :
    Covers (r :: rest) s ↔ (r.start ≤ s ∧ s ≤ r.stop) ∨ Covers rest s := by
  simp [Covers]

theorem SlotRange.slots_succ {start prev : Int} (h : start ≤ prev) :
    SlotRange.slots ⟨start, prev + 1⟩ = SlotRange.slots ⟨start, prev⟩ ++ [prev + 1] := by
  simp only [SlotRange.slots, SlotRange.count]
  rw [show (prev + 1 - start + 1).toNat = (prev - start + 1).toNat + 1 by omega, List.range_succ,
    List.map_append, List.map_singleton]
  congr 2
  omega

/-- Collapsing loses no slot and changes no order. -/
theorem expand_collapse {start prev : Int} (h : start ≤ prev) (rest : List Int) :
    expand (collapse start prev rest) = SlotRange.slots ⟨start, prev⟩ ++ rest := by
  induction rest generalizing start prev with
  | nil => simp [collapse, expand]
  | cons slot rest ih =>
    unfold collapse
    split
    · rename_i hnext
      subst hnext
      rw [ih (by omega), SlotRange.slots_succ h, List.append_assoc]
      rfl
    · rw [expand_cons, ih (le_refl slot)]
      simp [SlotRange.slots, SlotRange.count]

theorem ordered_collapse {start prev : Int} (h : start ≤ prev) (rest : List Int) :
    Ordered (collapse start prev rest) := by
  induction rest generalizing start prev with
  | nil =>
    intro r hr
    rw [List.mem_singleton.mp hr]
    exact h
  | cons slot rest ih =>
    unfold collapse
    split
    · exact ih (by omega)
    · exact List.forall_mem_cons.mpr ⟨h, ih (le_refl slot)⟩

theorem expand_slotsToRanges (slots : List Int) :
    expand (slotsToRanges slots) = slots.insertionSort (· ≤ ·) := by
  unfold slotsToRanges
  cases slots.insertionSort (· ≤ ·) with
  | nil => rfl
  | cons first rest =>
    rw [expand_collapse (le_refl first)]
    simp [SlotRange.slots, SlotRange.count]

theorem perm_expand_slotsToRanges (slots : List Int) :
    (expand (slotsToRanges slots)).Perm slots := by
  rw [expand_slotsToRanges]
  exact List.perm_insertionSort _ slots

theorem ordered_slotsToRanges (slots : List Int) : Ordered (slotsToRanges slots) := by
  unfold slotsToRanges
  cases slots.insertionSort (· ≤ ·) with
  | nil => exact fun r hr => nomatch hr
  | cons first rest => exact ordered_collapse (le_refl first) rest

theorem countSlots_slotsToRanges (slots : List Int) :
    countSlots (slotsToRanges slots) = slots.length := by
  rw [← length_expand (ordered_slotsToRanges slots), (perm_expand_slotsToRanges slots).length_eq]

/-- `slotsToRanges` covers the given slots and no others. -/
theorem covers_slotsToRanges (slots : List Int) (s : Int) :
    Covers (slotsToRanges slots) s ↔ s ∈ slots := by
  rw [← mem_expand, (perm_expand_slotsToRanges slots).mem_iff]

theorem splitFrom_eq (base rem : Int) (i n : Nat) (unassigned : List SlotRange) :
    splitFrom base rem i (n + 1) unassigned =
      if (if (i : Int) < rem then base + 1 else base) = 0 then
        [] :: splitFrom base rem (i + 1) n unassigned
      else
        slotsToRanges (takeSlots unassigned (if (i : Int) < rem then base + 1 else base)) ::
          splitFrom base rem (i + 1) n
            (removeLowestSlots unassigned (if (i : Int) < rem then base + 1 else base)) := rfl

theorem splitFrom_succ (base rem i n : Nat) (h : Ordered unassigned) :
    ∃ rest, splitFrom base rem i (n + 1) unassigned =
        slotsToRanges ((expand unassigned).take (base + if i < rem then 1 else 0)) ::
          splitFrom base rem (i + 1) n rest ∧
      Ordered rest ∧
      expand rest = (expand unassigned).drop (base + if i < rem then 1 else 0) := by
  have hwant : (if (i : Int) < rem then (base : Int) + 1 else base) =
      (base + if i < rem then 1 else 0 : Nat) := by
    split <;> split <;> omega
  rw [splitFrom_eq, hwant]
  generalize (base + if i < rem then 1 else 0 : Nat) = want
  split
  · rename_i hzero
    refine ⟨unassigned, ?_, h, ?_⟩
    · rw [show want = 0 by omega]
      rfl
    · rw [show want = 0 by omega, List.drop_zero]
  · refine ⟨_, ?_, ordered_removeLowestSlots unassigned h want,
      expand_removeLowestSlots unassigned h want⟩
    rw [takeSlots_eq, Int.toNat_natCast]

/-- The chunks of a split that has already handed out the shares below `i`. -/
theorem splitFrom_eq_map (total k i n : Nat) (h : Ordered unassigned) :
    splitFrom (total / k : Nat) (total % k : Nat) i n unassigned =
      (List.range n).map fun j => slotsToRanges (((expand unassigned).drop
        (shareStart total k (i + j) - shareStart total k i)).take (shareSize total k (i + j))) := by
  induction n generalizing i unassigned with
  | zero => rfl
  | succ n ih =>
    obtain ⟨rest, heq, hordered, hexpand⟩ := splitFrom_succ (total / k) (total % k) i n h
    change expand rest = (expand unassigned).drop (shareSize total k i) at hexpand
    rw [heq, ih (i + 1) hordered, hexpand, List.range_succ_eq_map, List.map_cons, List.map_map]
    refine congrArg₂ List.cons ?_ (List.map_congr_left fun j _ => ?_)
    · rw [show i + 0 = i from rfl, Nat.sub_self, List.drop_zero]
      rfl
    · have hstart := shareStart_succ total k i
      have hle := shareStart_le_add total k (i + 1) j
      rw [List.drop_drop, Function.comp_apply, show i + Nat.succ j = i + 1 + j by omega,
        show shareSize total k i + (shareStart total k (i + 1 + j) - shareStart total k (i + 1)) =
          shareStart total k (i + 1 + j) - shareStart total k i by omega]

theorem splitFrom_length (base rem : Int) (i n : Nat) (unassigned : List SlotRange) :
    (splitFrom base rem i n unassigned).length = n := by
  induction n generalizing i unassigned with
  | zero => rfl
  | succ n ih =>
    rw [splitFrom_eq]
    generalize (if (i : Int) < rem then base + 1 else base) = want
    split <;> rw [List.length_cons, ih]

theorem splitUnassignedEvenly_length (unassigned : List SlotRange) (n : Nat) :
    (splitUnassignedEvenly unassigned n).length = n := splitFrom_length _ _ _ _ _

theorem splitUnassignedEvenly_nil (n : Nat) :
    splitUnassignedEvenly [] n = List.replicate n [] := by
  suffices ∀ i, splitFrom 0 0 i n [] = List.replicate n [] by
    simpa [splitUnassignedEvenly, countSlots] using this 0
  induction n with
  | zero => exact fun _ => rfl
  | succ n ih =>
    intro i
    rw [splitFrom_eq, if_pos (by split <;> omega), ih, List.replicate_succ]

/-- The chunks are the even shares of the expansion. -/
theorem splitUnassignedEvenly_eq_map (h : Ordered unassigned) (n : Nat) :
    splitUnassignedEvenly unassigned n =
      (List.range n).map fun i => slotsToRanges (evenShare (expand unassigned) n i) := by
  unfold splitUnassignedEvenly
  rw [← length_expand h]
  refine (splitFrom_eq_map (expand unassigned).length n 0 n h).trans ?_
  refine List.map_congr_left fun i _ => ?_
  rw [Nat.zero_add, shareStart_zero, Nat.sub_zero]
  rfl

theorem covers_splitUnassignedEvenly (h : Ordered unassigned) {n i : Nat} {chunk : List SlotRange}
    (hi : (splitUnassignedEvenly unassigned n)[i]? = some chunk) (s : Int) :
    Covers chunk s ↔ s ∈ evenShare (expand unassigned) n i := by
  have hlt : i < n := splitUnassignedEvenly_length unassigned n ▸ (List.getElem?_eq_some_iff.mp hi).1
  rw [splitUnassignedEvenly_eq_map h, List.getElem?_map, List.getElem?_range hlt, Option.map_some,
    Option.some.injEq] at hi
  rw [← hi, covers_slotsToRanges]

/-! ## Subtracting -/

theorem covers_subtractSlotRange {base remove : SlotRange} (h : remove.start ≤ remove.stop)
    (s : Int) :
    Covers (subtractSlotRange base remove) s ↔
      (base.start ≤ s ∧ s ≤ base.stop) ∧ ¬ (remove.start ≤ s ∧ s ≤ remove.stop) := by
  unfold subtractSlotRange Covers
  split
  · simp only [List.mem_singleton, exists_eq_left]
    omega
  · simp only [List.mem_append, or_and_right, exists_or]
    split <;> split <;> simp <;> omega

/-- What is left lies within the base, and is a range if the base is one. -/
theorem mem_subtractSlotRange {base remove : SlotRange} (hr : r ∈ subtractSlotRange base remove) :
    base.start ≤ r.start ∧ r.stop ≤ base.stop ∧ (base.start ≤ base.stop → r.start ≤ r.stop) := by
  unfold subtractSlotRange at hr
  split at hr
  · rw [List.mem_singleton.mp hr]
    exact ⟨le_refl _, le_refl _, id⟩
  · rcases List.mem_append.mp hr with hr | hr <;> split at hr
    · rw [List.mem_singleton.mp hr]
      dsimp only
      omega
    · cases hr
    · rw [List.mem_singleton.mp hr]
      dsimp only
      omega
    · cases hr

/-- Each range ends before the next one starts. -/
def Apart (ranges : List SlotRange) : Prop := ranges.Pairwise fun a b => a.stop < b.start

theorem SlotRange.pairwise_slots (r : SlotRange) : r.slots.Pairwise (· < ·) := by
  unfold SlotRange.slots
  refine List.pairwise_map.mpr (List.pairwise_lt_range.imp fun hab => ?_)
  omega

theorem pairwise_expand (h : Apart ranges) : (expand ranges).Pairwise (· < ·) := by
  refine List.pairwise_flatMap.mpr ⟨fun r _ => r.pairwise_slots, ?_⟩
  refine h.imp fun {a b} hab x hx y hy => ?_
  have hxa := SlotRange.mem_slots.mp hx
  have hyb := SlotRange.mem_slots.mp hy
  omega

/-! ## Parsed ranges -/

theorem parseSlotRange_ordered {s : Str} (h : parseSlotRange s = .ok r) : r.start ≤ r.stop := by
  unfold parseSlotRange at h
  split at h
  · split at h
    · cases h
    · cases h
      exact le_refl _
  · split at h
    · cases h
    · cases h
    · split at h
      · cases h
      · cases h
        dsimp only
        omega

theorem parseSlotRanges_ordered {words : List Str} {rs : List SlotRange}
    (h : parseSlotRanges words = .ok rs) : Ordered rs := by
  induction words generalizing rs with
  | nil =>
    cases h
    exact fun r hr => nomatch hr
  | cons f rest ih =>
    unfold parseSlotRanges at h
    split at h
    · exact ih h
    · split at h
      · cases h
      · rename_i r hr
        split at h
        · cases h
        · rename_i rs' hrs
          cases h
          exact List.forall_mem_cons.mpr ⟨parseSlotRange_ordered hr, ih hrs⟩

end ValkeyOperator.Valkey

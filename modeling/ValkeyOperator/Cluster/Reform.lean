import ValkeyOperator.Cluster.Assignment
import ValkeyOperator.Cluster.NodeSpec

/-! Re-forming a restored cluster (`perconavalkeycluster/restore_reform.go`).

A seeded engine claims the slots its keys are in. Re-forming asks for what is missing
of the range that the even split of all slots gives to the position of the primary;
what the manifest of the backup says is not read. -/

namespace ValkeyOperator.Cluster
open Text Valkey Api

variable {positions : GoMap Str NodePosition} {s : Int} {i : Nat}

/-! ## The even split -/

/-- The ranges of the shards `i`, `i+1`, …, `i+k-1`, from `start` on. -/
def evenSplitFrom (base rem : Int) : Nat → Nat → Int → List SlotRange
  | _, 0, _ => []
  | i, k + 1, start =>
    let size := if (i : Int) < rem then base + 1 else base
    ⟨start, start + size - 1⟩ :: evenSplitFrom base rem (i + 1) k (start + size)

def evenSplitRanges (n : Int) : List SlotRange :=
  if n ≤ 0 then []
  else evenSplitFrom (totalSlots.tdiv n) (totalSlots.tmod n) 0 n.toNat 0

/-- The slot is in share `i` of all slots cut into `k`. -/
def InShare (k i : Nat) (s : Int) : Prop :=
  shareStart 16384 k i ≤ s ∧ s < shareStart 16384 k (i + 1)

theorem InShare.unique {k j : Nat} (hi : InShare k i s) (hj : InShare k j s) : i = j := by
  have hle : ∀ a b, InShare k a s → InShare k b s → a ≤ b := by
    intro a b ha hb
    by_contra hlt
    have hmono := shareStart_le_add 16384 k (b + 1) (a - (b + 1))
    rw [show b + 1 + (a - (b + 1)) = a by omega] at hmono
    have h1 := ha.1
    have h2 := hb.2
    omega
  exact Nat.le_antisymm (hle i j hi hj) (hle j i hj hi)

theorem InShare.bounds {k : Nat} (h : InShare k i s) (hi : i < k) : 0 ≤ s ∧ s ≤ maxSlot := by
  have hmono := shareStart_le_add 16384 k (i + 1) (k - (i + 1))
  rw [show i + 1 + (k - (i + 1)) = k by omega, shareStart_self _ (by omega)] at hmono
  obtain ⟨hlow, hhigh⟩ := h
  unfold maxSlot totalSlots
  omega

theorem getElem?_evenSplitFrom (k i n : Nat) {j : Nat} (hj : j < n) :
    (evenSplitFrom (16384 / k : Nat) (16384 % k : Nat) i n (shareStart 16384 k i))[j]? =
      some ⟨shareStart 16384 k (i + j), shareStart 16384 k (i + j + 1) - 1⟩ := by
  induction n generalizing i j with
  | zero => omega
  | succ n ih =>
    have hsize : (if (i : Int) < (16384 % k : Nat) then ((16384 / k : Nat) : Int) + 1
        else (16384 / k : Nat)) = shareSize 16384 k i := by
      unfold shareSize
      split <;> split <;> omega
    have hnext := shareStart_succ 16384 k i
    unfold evenSplitFrom
    dsimp only
    rw [hsize]
    have hstart : ((shareStart 16384 k i : Nat) : Int) + (shareSize 16384 k i : Nat) =
        (shareStart 16384 k (i + 1) : Nat) := by omega
    rw [hstart]
    cases j with
    | zero => rfl
    | succ j =>
      rw [List.getElem?_cons_succ, ih (i + 1) (by omega), show i + 1 + j = i + (j + 1) by omega]

theorem length_evenSplitFrom (base rem : Int) (i k : Nat) (start : Int) :
    (evenSplitFrom base rem i k start).length = k := by
  induction k generalizing i start with
  | zero => rfl
  | succ k ih =>
    unfold evenSplitFrom
    dsimp only
    rw [List.length_cons, ih]

theorem evenSplitRanges_eq {n : Int} (h : 0 < n) :
    evenSplitRanges n =
      evenSplitFrom (16384 / n.toNat : Nat) (16384 % n.toNat : Nat) 0 n.toNat 0 := by
  obtain ⟨k, rfl⟩ := Int.eq_ofNat_of_zero_le (Int.le_of_lt h)
  unfold evenSplitRanges
  rw [if_neg (by omega)]
  rfl

theorem length_evenSplitRanges (n : Int) : (evenSplitRanges n).length = n.toNat := by
  by_cases h : 0 < n
  · rw [evenSplitRanges_eq h, length_evenSplitFrom]
  · rw [evenSplitRanges, if_pos (by omega), show n.toNat = 0 by omega]
    rfl

/-- Share `i` of all slots cut into `n`, as a range. -/
def shareRange (n i : Nat) : SlotRange := ⟨shareStart 16384 n i, shareStart 16384 n (i + 1) - 1⟩

theorem getElem?_evenSplitRanges {n : Int} (hi : i < n.toNat) :
    (evenSplitRanges n)[i]? = some (shareRange n.toNat i) := by
  have hget := getElem?_evenSplitFrom n.toNat 0 n.toNat hi
  rw [shareStart_zero, Int.natCast_zero, Nat.zero_add] at hget
  rw [evenSplitRanges_eq (by omega), hget]
  rfl

theorem mem_evenSplitRanges {n : Int} {want : SlotRange} (h : (evenSplitRanges n)[i]? = some want)
    (s : Int) : (want.start ≤ s ∧ s ≤ want.stop) ↔ InShare n.toNat i s := by
  have hi : i < n.toNat := by
    rw [← length_evenSplitRanges]
    exact (List.getElem?_eq_some_iff.mp h).1
  rw [getElem?_evenSplitRanges hi, Option.some.injEq] at h
  rw [← h]
  unfold InShare shareRange
  dsimp only
  omega

/-! ## Introducing the nodes -/

/-- `meetAllReachable` with its guard: how many nodes are introduced to the first one,
given those for which both directions succeed. -/
def meetAllRestoreNodes (S : Sorter NodeState) (state : ClusterState)
    (introduced : NodeState → Bool) : Nat :=
  if state.nodes.length < 2 then 0
  else if state.nodes.all fun n => decide ((state.nodes.length : Int) ≤ n.knownNodes) then 0
  else (sortByAddr S state.nodes).tail.countP introduced

/-! ## Filling the gaps -/

/-- The shard of a primary and the range that the split gives to it. -/
def wantedRange (positions : GoMap Str NodePosition) (shardRanges : List SlotRange)
    (n : NodeState) : Option (Int × SlotRange) :=
  match positionFor positions n with
  | none => none
  | some pos =>
    if !pos.isPrimary || decide (pos.shard ≥ shardRanges.length) then none
    else (shardRanges[pos.shard.toNat]?).map fun want => (pos.shard, want)

/-- The loop over the scraped nodes; it counts the assignments. -/
def fillGaps (S : Sorter SlotRange) (positions : GoMap Str NodePosition)
    (shardRanges : List SlotRange) : List NodeState → Nat → Action Engines Nat
  | [], assigned => pure assigned
  | n :: rest, assigned =>
    match wantedRange positions shardRanges n with
    | none => fillGaps S positions shardRanges rest assigned
    | some (shard, want) =>
      let gap := subtractRanges S [want] n.slots
      if gap = [] then fillGaps S positions shardRanges rest assigned
      else
        (Wire.send (n, .addSlotsRange gap)).mapErr (Err.wrap
          ("restore re-form CLUSTER ADDSLOTSRANGE " ++ formatSlotRanges gap ++
            " -> shard " ++ itoa shard ++ " (" ++ n.addr ++ ")"))
        >>= fun _ => fillGaps S positions shardRanges rest (assigned + 1)

def assignRestoreSlotRanges (S : Sorter SlotRange) (cluster : PerconaValkeyCluster)
    (state : ClusterState) (nodes : List ValkeyNode) : Action Engines Bool := do
  let assigned ← fillGaps S (positionsByIP nodes) (evenSplitRanges cluster.spec.shards.toInt)
    state.nodes 0
  pure (decide (assigned > 0))

/-- Whether the pass has made progress. -/
def reformRestoreTarget (S : Sorter SlotRange) (cluster : PerconaValkeyCluster)
    (state : ClusterState) (nodes : List ValkeyNode) (met : Nat) : Action Engines Bool :=
  if !isRestoreTarget cluster then pure false
  else if state.getUnassignedSlots = [] then pure false
  else if met > 0 then pure true
  else assignRestoreSlotRanges S cluster state nodes

/-! ## The commands of a pass -/

/-- The primaries with what is missing of their ranges. -/
def gaps (S : Sorter SlotRange) (positions : GoMap Str NodePosition)
    (shardRanges : List SlotRange) (scraped : List NodeState) :
    List (NodeState × List SlotRange) :=
  scraped.filterMap fun n =>
    (wantedRange positions shardRanges n).map fun want => (n, subtractRanges S [want.2] n.slots)

/-- What a pass asks for. -/
def reformRequests (S : Sorter SlotRange) (cluster : PerconaValkeyCluster) (state : ClusterState)
    (nodes : List ValkeyNode) (met : Nat) : List (NodeState × Command) :=
  if !isRestoreTarget cluster ∨ state.getUnassignedSlots = [] ∨ met > 0 then []
  else assignments (gaps S (positionsByIP nodes) (evenSplitRanges cluster.spec.shards.toInt)
    state.nodes)

theorem fillGaps_issues (S : Sorter SlotRange) (positions : GoMap Str NodePosition)
    (shardRanges : List SlotRange) (scraped : List NodeState) (assigned : Nat) :
    ∃ m, Wire.Issues (fillGaps S positions shardRanges scraped assigned) m
      (assignments (gaps S positions shardRanges scraped)) := by
  induction scraped generalizing assigned with
  | nil => exact ⟨assigned, Wire.Issues.pure assigned⟩
  | cons n rest ih =>
    unfold fillGaps gaps
    cases hwant : wantedRange positions shardRanges n with
    | none =>
      rw [List.filterMap_cons_none (by rw [hwant]; rfl)]
      exact ih assigned
    | some want =>
      rw [List.filterMap_cons_some (by rw [hwant]; rfl)]
      unfold assignments
      rw [List.flatMap_cons]
      dsimp only
      split
      · exact ih assigned
      · obtain ⟨m, hrest⟩ := ih (assigned + 1)
        exact ⟨m, ((Wire.Issues.send _).mapErr _).bind hrest⟩

theorem reformRestoreTarget_issues (S : Sorter SlotRange) (cluster : PerconaValkeyCluster)
    (state : ClusterState) (nodes : List ValkeyNode) (met : Nat) :
    ∃ progressed, Wire.Issues (reformRestoreTarget S cluster state nodes met) progressed
      (reformRequests S cluster state nodes met) := by
  unfold reformRestoreTarget reformRequests
  by_cases htarget : (!isRestoreTarget cluster) = true
  · rw [if_pos htarget, if_pos (.inl htarget)]
    exact ⟨false, Wire.Issues.pure _⟩
  · by_cases hfull : state.getUnassignedSlots = []
    · rw [if_neg htarget, if_pos hfull, if_pos (.inr (.inl hfull))]
      exact ⟨false, Wire.Issues.pure _⟩
    · by_cases hmet : met > 0
      · rw [if_neg htarget, if_neg hfull, if_pos hmet, if_pos (.inr (.inr hmet))]
        exact ⟨true, Wire.Issues.pure _⟩
      · rw [if_neg htarget, if_neg hfull, if_neg hmet, if_neg (by simp only [not_or]; tauto)]
        obtain ⟨m, hissues⟩ := fillGaps_issues S (positionsByIP nodes)
          (evenSplitRanges cluster.spec.shards.toInt) state.nodes 0
        have hdone := Wire.Issues.bind (f := fun assigned => pure (decide (assigned > 0)))
          hissues (Wire.Issues.pure _)
        rw [List.append_nil] at hdone
        exact ⟨_, hdone⟩

section Requests

variable {S : Sorter SlotRange} {cluster : PerconaValkeyCluster} {state : ClusterState}
  {nodes : List ValkeyNode} {met : Nat} {n : NodeState}

theorem mem_gaps {shardRanges : List SlotRange} {scraped : List NodeState} {gap : List SlotRange} :
    (n, gap) ∈ gaps S positions shardRanges scraped ↔
      n ∈ scraped ∧ ∃ want, wantedRange positions shardRanges n = some want ∧
        subtractRanges S [want.2] n.slots = gap := by
  unfold gaps
  rw [List.mem_filterMap]
  constructor
  · intro ⟨m, hm, hgap⟩
    obtain ⟨want, hwant, heq⟩ := Option.map_eq_some_iff.mp hgap
    obtain ⟨rfl, hranges⟩ := Prod.mk.inj heq
    exact ⟨hm, want, hwant, hranges⟩
  · intro ⟨hn, want, hwant, hgap⟩
    exact ⟨n, hn, by rw [hwant, ← hgap]; rfl⟩

theorem wantedRange_inShare {k : Int} {want : Int × SlotRange}
    (h : wantedRange positions (evenSplitRanges k) n = some want) :
    ∃ pos, positionFor positions n = some pos ∧ pos.isPrimary = true ∧
      ∀ s, (want.2.start ≤ s ∧ s ≤ want.2.stop) ↔ InShare k.toNat pos.shard.toNat s := by
  unfold wantedRange at h
  cases hpos : positionFor positions n with
  | none =>
    rw [hpos] at h
    cases h
  | some pos =>
    rw [hpos] at h
    dsimp only at h
    split at h
    · cases h
    · rename_i hskip
      obtain ⟨range, hrange, rfl⟩ := Option.map_eq_some_iff.mp h
      rw [Bool.or_eq_true, not_or] at hskip
      exact ⟨pos, rfl, by simpa using hskip.1, fun s => mem_evenSplitRanges hrange s⟩

theorem exists_wantedRange {k : Int} {pos : NodePosition}
    (hpos : positionFor positions n = some pos) (hprimary : pos.isPrimary = true)
    (hlow : 0 ≤ pos.shard) (hhigh : pos.shard < k) :
    ∃ want, wantedRange positions (evenSplitRanges k) n = some (pos.shard, want) := by
  have hlength := length_evenSplitRanges k
  have hlt : pos.shard.toNat < (evenSplitRanges k).length := by omega
  refine ⟨(evenSplitRanges k)[pos.shard.toNat], ?_⟩
  unfold wantedRange
  rw [hpos]
  dsimp only
  rw [if_neg (by simp only [hprimary]; simp; omega), List.getElem?_eq_getElem hlt]
  rfl

/-- A slot is asked for only for a primary the pass can place, out of its share, and
only if it does not own it. -/
theorem request_inShare (hordered : ∀ n ∈ state.nodes, Ordered n.slots) {ranges : List SlotRange}
    (hrequest : (n, Command.addSlotsRange ranges) ∈ reformRequests S cluster state nodes met)
    (hs : Covers ranges s) :
    n ∈ state.nodes ∧ ¬ Covers n.slots s ∧
      ∃ pos, positionFor (positionsByIP nodes) n = some pos ∧ pos.isPrimary = true ∧
        InShare cluster.spec.shards.toInt.toNat pos.shard.toNat s := by
  unfold reformRequests at hrequest
  split at hrequest
  · cases hrequest
  · obtain ⟨hn, want, hwant, rfl⟩ := mem_gaps.mp (mem_assignments.mp hrequest).2
    rw [covers_subtractRanges S _ (hordered n hn), covers_singleton] at hs
    obtain ⟨pos, hpos, hprimary, hshare⟩ := wantedRange_inShare hwant
    exact ⟨hn, hs.2, pos, hpos, hprimary, (hshare s).mp hs.1⟩

/-- While slots are unassigned and the nodes have met, what a placed primary lacks of
its share is asked for. -/
theorem exists_request (htarget : isRestoreTarget cluster = true)
    (hfree : state.getUnassignedSlots ≠ []) (hordered : Ordered n.slots) (hn : n ∈ state.nodes)
    {pos : NodePosition} (hpos : positionFor (positionsByIP nodes) n = some pos)
    (hprimary : pos.isPrimary = true) (hlow : 0 ≤ pos.shard)
    (hhigh : pos.shard < cluster.spec.shards.toInt)
    (hs : InShare cluster.spec.shards.toInt.toNat pos.shard.toNat s) (hlacks : ¬ Covers n.slots s) :
    AddsSlot (reformRequests S cluster state nodes 0) n.id s := by
  obtain ⟨want, hwant⟩ := exists_wantedRange hpos hprimary hlow hhigh
  obtain ⟨pos', hpos', -, hshare⟩ := wantedRange_inShare hwant
  rw [hpos, Option.some.injEq] at hpos'
  subst hpos'
  have hcovers : Covers (subtractRanges S [want] n.slots) s := by
    rw [covers_subtractRanges S _ hordered, covers_singleton]
    exact ⟨(hshare s).mpr hs, hlacks⟩
  refine ⟨n, _, ?_, rfl, hcovers⟩
  unfold reformRequests
  rw [if_neg (by simp [htarget, hfree])]
  refine mem_assignments.mpr ⟨?_, mem_gaps.mpr ⟨hn, _, hwant, rfl⟩⟩
  intro hnil
  rw [hnil] at hcovers
  obtain ⟨r, hr, -⟩ := hcovers
  cases hr

end Requests

end ValkeyOperator.Cluster

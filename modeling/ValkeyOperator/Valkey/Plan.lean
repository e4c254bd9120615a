import ValkeyOperator.Valkey.State

/-! The slot planners (`pkg/valkey/plan.go`).

A draining primary gives up its lowest slots, one batch per pass, to the first
other primary in address order. Rebalancing moves a batch from the first primary
above its target to the first below it. -/

namespace ValkeyOperator.Valkey
open Text

/-- The most slots one planned migration moves. -/
def batchSize : Int := 400

def compareStr (a b : Str) : Int := if a < b then -1 else if b < a then 1 else 0

theorem compareStr_eq_zero {a b : Str} (h : compareStr a b = 0) : a = b := by
  unfold compareStr at h
  split at h
  · cases h
  · split at h
    · cases h
    · exact le_antisymm (not_lt.mp ‹_›) (not_lt.mp ‹_›)

theorem compareStr_neg {a b : Str} : compareStr a b < 0 ↔ a < b := by
  unfold compareStr
  split
  · simpa
  · rename_i hlt
    split <;> simpa using hlt

theorem compareStr_pos {a b : Str} : 0 < compareStr a b ↔ b < a := by
  unfold compareStr
  split
  · rename_i hlt
    simpa using le_of_lt hlt
  · split
    · simpa
    · rename_i hlt
      simpa using hlt

theorem compares_compareStr {α : Type} (key : α → Str) :
    Compares fun a b => compareStr (key a) (key b) :=
  .of_lt key (fun _ _ => compareStr_neg) fun _ _ => compareStr_pos

def compareByAddr (a b : NodeState) : Int := compareStr a.addr b.addr

structure Move where
  srcID : Str
  dstID : Str
  ranges : List SlotRange
deriving DecidableEq

def planDrainMove (S : Sorter NodeState) (src : NodeState) (remaining : List NodeState)
    (batch : Int) : Option Move :=
  if batch ≤ 0 then none
  else if src.numSlots = 0 then none
  else
    match (S.sort compareByAddr remaining).find? fun c => c.id != src.id && c.isPrimary with
    | none => none
    | some dst =>
      some {
        srcID := src.id, dstID := dst.id
        ranges := slotsToRanges (takeSlots src.slots (min src.numSlots batch)) }

/-- The slot-owning primaries and the slotless pending ones, in address order. -/
def effectiveShards (S : Sorter NodeState) (s : ClusterState) : List NodeState :=
  S.sort compareByAddr (s.shards.filterMap ShardState.primary ++
    s.pendingNodes.filter NodeState.isPrimary)

/-- An even share each, the remainder one by one to the first. -/
def targetSlotsPerShard (n : Int) : List Int :=
  if n ≤ 0 then []
  else (List.range n.toNat).map fun i : Nat =>
    (totalSlots / n) + if (i : Int) < totalSlots % n then 1 else 0

def rebalanceTolerance : Int := 1

def planRebalanceMove (S : Sorter NodeState) (s : ClusterState) (shards : Int) : Option Move :=
  if shards ≤ 0 then none
  else
    let primaries := effectiveShards S s
    if (primaries.length : Int) ≠ shards then none
    else
      let allocs := primaries.zip (targetSlotsPerShard shards)
      match allocs.find? fun a => a.1.numSlots - a.2 > rebalanceTolerance,
          allocs.find? fun a => a.2 - a.1.numSlots > rebalanceTolerance with
      | some src, some dst =>
        let count := min (src.1.numSlots - src.2) (min (dst.2 - dst.1.numSlots) batchSize)
        some {
          srcID := src.1.id, dstID := dst.1.id
          ranges := slotsToRanges (takeSlots src.1.slots count) }
      | _, _ => none

end ValkeyOperator.Valkey

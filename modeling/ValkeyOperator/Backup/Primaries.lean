import ValkeyOperator.Backup.Snapshot
import ValkeyOperator.Valkey.Plan
import ValkeyOperator.Valkey.Scrape

/-! The shards of a backup (`shardPrimariesFromClusterNodes` of
`cmd/valkey-backup/config_env.go`).

A backup numbers its shards by the rank of their primaries' addresses in one node
table; neither the labels of the pods nor the slots have a say in it. -/

namespace ValkeyOperator.Backup
open Text Valkey

/-- A live primary with an address and at least one slot. -/
def isSnapshotPrimary (n : NodeState) : Bool :=
  n.isPrimary && !n.isFailed && !(n.hasFlag "noaddr" || n.addr = []) && n.slots ≠ []

def shardPrimary (i : Nat) (n : NodeState) : ShardPrimary :=
  { index := i, nodeID := n.id, addr := n.addr, slots := n.slots, replOffset := 0 }

def shardPrimariesFromClusterNodes (S : Sorter NodeState) (raw : Str) :
    Except Err (List ShardPrimary) :=
  let primaries := (parseClusterNodes raw).filter isSnapshotPrimary
  if primaries = [] then
    .error ⟨"no slot-owning primaries found in CLUSTER NODES", false⟩
  else .ok ((S.sort compareByAddr primaries).mapIdx shardPrimary)

theorem shardPrimaries_index {S : Sorter NodeState} {raw : Str} {shards : List ShardPrimary}
    (h : shardPrimariesFromClusterNodes S raw = .ok shards) :
    shards.map ShardPrimary.index = (List.range shards.length).map Int.ofNat := by
  unfold shardPrimariesFromClusterNodes at h
  dsimp only at h
  split at h
  · cases h
  · cases h
    refine List.ext_getElem (by simp) fun i hi _ => ?_
    simp [shardPrimary]

end ValkeyOperator.Backup

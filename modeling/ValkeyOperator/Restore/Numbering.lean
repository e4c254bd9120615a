import ValkeyOperator.Backup.Download
import ValkeyOperator.Backup.Primaries
import ValkeyOperator.Restore.Compat
import ValkeyOperator.Restore.Passes

/-! Whether an accepted manifest can seed its target.

The target is created with as many shards as the manifest has fragments, and the sidecar
of shard `i` looks for the fragment with the index `i`. The gate before that counts
slots and fragments but reads no index, so a set whose fragments are not numbered from 0
without a gap gets through: a best-effort backup that lost a shard leaves such a one, a
strict one never. -/

namespace ValkeyOperator.Restore
open Text Valkey Api
open Backup ValkeyOperator.Stream

/-- The key of the object a fragment names, which it records relative to its set. -/
def fragmentKey (cluster backup : Str) (frag : ShardManifest) : Str :=
  Path.joinAll [setPrefix cluster backup, frag.rdbKey]

/-- The seed step of shard `i` finds a fragment and reads the object that it names. -/
def SeedReads (sha256 : Bytes → Str) (codec : Codec) (b : Backend) (src : ResolvedSource)
    (objects : Objects) (man : Manifest) (i : Int) : Prop :=
  ∃ frag, findShard man i = some frag ∧
    ((runDownload sha256 codec (seedOptions b src.cluster src.backup i) .whole).after
      ⟨⟨objects, []⟩, [], []⟩).asked =
      [manifestKey src.cluster src.backup, fragmentKey src.cluster src.backup frag]

/-- The shard count a target is created with. -/
def targetShards (man : Manifest) : Int := (Int32.ofNat man.shards.length).toInt

/-- The fragments are numbered from 0 without a gap, and each number's own records the
key of that shard. -/
structure Numbered (cluster backup : Str) (man : Manifest) : Prop where
  gapless : ∀ i, 0 ≤ i → i < targetShards man → i ∈ man.shards.map ShardManifest.index
  keyed : ∀ i, 0 ≤ i → i < targetShards man → ∀ frag, findShard man i = some frag →
    fragmentKey cluster backup frag = shardRDBKey cluster backup i

theorem findShard_isSome_iff {man : Manifest} {i : Int} :
    (∃ frag, findShard man i = some frag) ↔ i ∈ man.shards.map ShardManifest.index := by
  rw [← Option.isSome_iff_exists]
  unfold findShard
  simp

/-- What the seed step asks for is decided by the index alone. -/
theorem seedReads_iff {sha256 : Bytes → Str} {codec : Codec} {b : Backend} {src : ResolvedSource}
    {objects : Objects} {man : Manifest}
    (hread : Readable codec b src.cluster src.backup objects man) (i : Int) :
    SeedReads sha256 codec b src objects man i ↔
      ∃ frag, findShard man i = some frag ∧
        fragmentKey src.cluster src.backup frag = shardRDBKey src.cluster src.backup i := by
  refine exists_congr fun frag => and_congr_right fun hfind => ?_
  have hasked : ((runDownload sha256 codec (seedOptions b src.cluster src.backup i) .whole).after
      ⟨⟨objects, []⟩, [], []⟩).asked =
      [manifestKey src.cluster src.backup, shardRDBKey src.cluster src.backup i] := by
    unfold Action.after
    rw [runDownload_found hread hfind]
    exact asked_downloadShard src.cluster src.backup i .whole frag _
  rw [hasked]
  simp [eq_comm]

/-- A created target has as many shards as the manifest has fragments. -/
theorem shards_createTargetCluster {env : RestoreEnv} {src : ResolvedSource} {man : Manifest}
    {w : RestoreWorld} {cluster : PerconaValkeyCluster} (hnone : w.cluster = none)
    (hfresh : env.appeared = none)
    (hcreated : ((createTargetCluster env src man).after w).cluster = some cluster) :
    cluster.spec.shards.toInt = targetShards man := by
  rw [cluster_createTargetCluster env src man hnone, hfresh] at hcreated
  dsimp only at hcreated
  split at hcreated
  · cases hcreated
  · cases hcreated
    rfl

/-- An accepted manifest can seed every shard of the target created for it exactly when
its fragments are numbered from 0 without a gap and record the keys of their shards. -/
theorem accepted_seeds_iff (sha256 : Bytes → Str) (codec : Codec) (b : Backend)
    (env : RestoreEnv) (src : ResolvedSource) (man : Manifest) (verdict : CoverageVerdict)
    (objects : Objects) (w : RestoreWorld) (cluster : PerconaValkeyCluster)
    (_haccepted : validateCompat w.restore env.template man = .ok verdict)
    (hread : Readable codec b src.cluster src.backup objects man)
    (hnone : w.cluster = none) (hfresh : env.appeared = none)
    (hcreated : ((createTargetCluster env src man).after w).cluster = some cluster) :
    (∀ i, 0 ≤ i → i < cluster.spec.shards.toInt → SeedReads sha256 codec b src objects man i) ↔
      Numbered src.cluster src.backup man := by
  rw [shards_createTargetCluster hnone hfresh hcreated]
  simp only [seedReads_iff hread]
  constructor
  · intro h
    refine ⟨fun i hlow hhigh => ?_, fun i hlow hhigh frag hfind => ?_⟩
    · obtain ⟨frag, hfind, -⟩ := h i hlow hhigh
      exact findShard_isSome_iff.mp ⟨frag, hfind⟩
    · obtain ⟨frag', hfind', hkey⟩ := h i hlow hhigh
      rw [hfind] at hfind'
      exact Option.some.inj hfind' ▸ hkey
  · intro h i hlow hhigh
    obtain ⟨frag, hfind⟩ := findShard_isSome_iff.mpr (h.gapless i hlow hhigh)
    exact ⟨frag, hfind, h.keyed i hlow hhigh frag hfind⟩

/-! ## What a backup leaves -/

/-- A strict backup of the primaries in a node table carries all of them over: the target
created for it has one shard for each, and the seed of shard `i` is what the primary of
rank `i` streamed. -/
theorem strict_backup_seeds {ρ : Type} (sha256 : Bytes → Str) (codec : Codec)
    (S : Sorter ShardPrimary) (S' : Sorter SlotRange) (S'' : Sorter NodeState)
    (kind : BackendKind) (readSize : Nat → Nat) (c n : ObjectName) (r : SetRun ρ)
    (before : Objects) {raw : Str}
    (hshards : shardPrimariesFromClusterNodes S'' raw = .ok r.shards)
    (hcount : r.shards.length < 2 ^ 31) (hstrict : r.consistency ≠ consistencyBestEffort)
    (hok : (runBackup sha256 codec.marshalIndent S S'
      (r.options (kind.open readSize) c.val n.val)).outcome ⟨⟨before, r.script⟩, []⟩ = .ok ()) :
    let b := kind.open readSize
    let objects := ((runBackup sha256 codec.marshalIndent S S'
      (r.options b c.val n.val)).after ⟨⟨before, r.script⟩, []⟩).bucket.objects
    ∃ man, Readable codec b c.val n.val objects man ∧
      (∀ env src w cluster, w.cluster = none → env.appeared = none →
        ((createTargetCluster env src man).after w).cluster = some cluster →
        cluster.spec.shards.toInt = r.shards.length) ∧
      ∀ (i : Nat) (sp : ShardPrimary), r.shards[i]? = some sp →
        ∃ stream length asked, r.source.openStream sp = .ok (stream, length) ∧
          runDownload sha256 codec (seedOptions b c.val n.val i) .whole ⟨⟨objects, []⟩, [], []⟩ =
            .ok () ⟨⟨objects, []⟩, asked, r.source.reader.content stream⟩ := by
  intro b objects
  obtain ⟨man, hread, hdistinct, hall, hlists⟩ :=
    runBackup_lists (keepsApart kind readSize c n) r before hok
  have hperm := hlists hstrict
  refine ⟨man, hread, fun env src w cluster hnone hfresh hcreated => ?_, fun i sp hsp => ?_⟩
  · have hlength : man.shards.length = r.shards.length := by simpa using hperm.length_eq
    rw [shards_createTargetCluster hnone hfresh hcreated, targetShards, hlength,
      Int32.toInt_ofNat_of_lt hcount]
  · have hrank := congrArg (·[i]?) (shardPrimaries_index hshards)
    have hindex : sp.index = i := by
      obtain ⟨hlt, hat⟩ := List.getElem?_eq_some_iff.mp hsp
      simpa [hlt, hat] using hrank
    have hmem := List.mem_of_getElem? hsp
    obtain ⟨frag, hfrag, hnumber⟩ := List.mem_map.mp
      (hperm.mem_iff.mpr (List.mem_map_of_mem hmem))
    obtain ⟨dump, ⟨sp', hsp', stream, length, hopen, -, rfl, rfl⟩, hstored⟩ := hall frag hfrag
    -- ranks tell the primaries apart, so the fragment is the one of `sp`
    obtain rfl : sp' = sp := List.inj_on_of_nodup_map r.ranked hsp' hmem hnumber
    have hfind := findShard_of_mem hdistinct hfrag
    rw [← hindex]
    exact ⟨stream, length, _, hopen, (runDownload_found hread hfind .whole).trans
      (downloadShard_stored hstored rfl _)⟩

/-- The table of two primaries and a replica; the primary with the higher address stands
first. -/
def pairTable : Str :=
  ("n1 10.0.0.9:6379@16379 myself,master - 0 0 2 connected 8192-16383\n" ++
    "n2 10.0.0.8:6379@16379 slave n0 0 0 1 connected\n" ++
    "n0 10.0.0.7:6379@16379 master - 0 0 1 connected 0-8191").toList

/-- A strict backup of them; each streams a dump of its own. -/
def pairRun : SetRun (Bytes × End) where
  mode := "cluster"
  crVersion := []
  engineVersion := []
  consistency := "strict"
  timestamp := []
  shards := [⟨0, "n0", "10.0.0.7:6379", [⟨0, 8191⟩], 0⟩,
    ⟨1, "n1", "10.0.0.9:6379", [⟨8192, 16383⟩], 0⟩]
  ranked := by decide
  source := ⟨slice, fun sp =>
    .ok ((rdbHeader ++ sp.nodeID, .eof), (rdbHeader ++ sp.nodeID).length)⟩
  script := []
  cut := 3

/-- What a run leaves in an empty bucket. -/
def storedBy (r : SetRun (Bytes × End)) : Objects :=
  ((runBackup hexChecksum textCodec.marshalIndent .insertion .insertion
    (r.options headerStore "prod" "bk-1")).after ⟨⟨∅, r.script⟩, []⟩).bucket.objects

/-- The seed of a shard is the dump `want`. -/
def PairSeeded (shard : Int) (want : Bytes) : Prop :=
  ∃ asked, runDownload hexChecksum textCodec (seedOptions headerStore "prod" "bk-1" shard)
    .whole ⟨⟨storedBy pairRun, []⟩, [], []⟩ = .ok () ⟨⟨storedBy pairRun, []⟩, asked, want⟩

theorem strict_backup_seeds_pair :
    PairSeeded 0 (rdbHeader ++ "n0".toList) ∧ PairSeeded 1 (rdbHeader ++ "n1".toList) := by
  have hshards : shardPrimariesFromClusterNodes .insertion pairTable = .ok pairRun.shards := by
    decide +kernel
  have hseeds : ∀ (i : Nat) (sp : ShardPrimary), pairRun.shards[i]? = some sp →
      ∃ stream length, pairRun.source.openStream sp = .ok (stream, length) ∧
        PairSeeded i (pairRun.source.reader.content stream) := by
    unfold PairSeeded
    -- with the run kept abstract the bucket is not computed
    generalize hrun : pairRun = r at hshards ⊢
    obtain ⟨man, -, -, hall⟩ := strict_backup_seeds hexChecksum textCodec .insertion .insertion
      .insertion (.cloud .s3 []) (fun _ => 1) ⟨"prod", by decide +kernel⟩
      ⟨"bk-1", by decide +kernel⟩ r ∅ hshards (by subst hrun; decide)
      (by subst hrun; decide) (by subst hrun; decide +kernel)
    intro i sp hsp
    obtain ⟨stream, length, asked, hopen, hseed⟩ := hall i sp hsp
    exact ⟨stream, length, hopen, asked, hseed⟩
  constructor
  · obtain ⟨stream, length, hopen, hseed⟩ := hseeds 0 _ rfl
    cases hopen
    exact hseed
  · obtain ⟨stream, length, hopen, hseed⟩ := hseeds 1 _ rfl
    cases hopen
    exact hseed

/-! ## A set that lost a shard -/

/-- The primaries of three shards, most slots being with the one that will be lost. -/
def threePrimaries (lost : Int) : List ShardPrimary :=
  [0, 1, 2].map fun i =>
    ⟨i, "n" ++ itoa i, "10.0.0." ++ itoa i,
      if i = lost then [⟨i, i⟩, ⟨3, 16383⟩] else [⟨i, i⟩], 0⟩

/-- A best-effort backup that cannot reach one of them. -/
def lossyRun (lost : Int) : SetRun (Bytes × End) where
  mode := "cluster"
  crVersion := []
  engineVersion := []
  consistency := consistencyBestEffort
  timestamp := []
  shards := threePrimaries lost
  ranked := by unfold threePrimaries; simp
  source := ⟨slice, fun sp =>
    if sp.index = lost then .error { msg := "connection refused" }
    else .ok ((rdbHeader, .eof), rdbHeader.length)⟩
  script := []
  cut := 3

def lossyManifest (lost : Int) : Manifest where
  schemaVersion := manifestSchemaVersion
  apiVersion := manifestAPIVersion
  cluster := "prod"
  backupName := "bk-1"
  mode := "cluster"
  crVersion := []
  engineVersion := []
  createdAt := []
  consistency := consistencyBestEffort
  slotCoverage := "partial"
  shards := ((threePrimaries lost).filter (·.index ≠ lost)).map fun sp =>
    fragment headerHash sp rdbHeader

/-- What is stored after that backup. -/
def lossyObjects (lost : Int) : Objects :=
  ((runBackup headerHash textCodec.marshalIndent .insertion .insertion
    ((lossyRun lost).options headerStore "prod" "bk-1")).after ⟨⟨∅, []⟩, []⟩).bucket.objects

def lossySource : ResolvedSource := ⟨"prod", "bk-1", "s3"⟩

/-- A restore of it, of which the user accepts that it is partial. -/
def lossyRestore : RestoreWorld where
  restore :=
    { name := "rst"
      annotations := (∅ : StrMap).insert annAllowPartial "true"
      spec := { clusterName := "copy", backupName := "bk-1" } }

def lossyEnv (lost : Int) : RestoreEnv where
  source := .ok lossySource
  manifest := .ok (lossyManifest lost)
  verdict := .ok []

/-- The target created for it. -/
def lossyTarget (lost : Int) : PerconaValkeyCluster :=
  newTarget (lossyEnv lost) lossyRestore.restore lossySource (lossyManifest lost)

theorem lossyTarget_created (lost : Int) :
    ((createTargetCluster (lossyEnv lost) lossySource (lossyManifest lost)).after
      lossyRestore).cluster = some (lossyTarget lost) :=
  cluster_createTargetCluster _ _ _ rfl

def lossyVerdict : CoverageVerdict where
  covered := 2
  complete := false
  overlap := false
  detail := "incomplete slot coverage: 2/16384 slots (gap)"

/-- The set that lost its last shard is accepted and seeds a cluster of two. -/
theorem accepted_seeds_lostLast :
    validateCompat lossyRestore.restore (lossyEnv 2).template (lossyManifest 2) = .ok lossyVerdict ∧
    (lossyTarget 2).spec.shards = 2 ∧
    ∀ i, 0 ≤ i → i < (lossyTarget 2).spec.shards.toInt →
      SeedReads headerHash textCodec headerStore lossySource
        (lossyObjects 2) (lossyManifest 2) i := by
  have hread : Readable textCodec headerStore lossySource.cluster
      lossySource.backup (lossyObjects 2) (lossyManifest 2) := by
    unfold Readable
    decide +kernel
  have hfacts : validateCompat lossyRestore.restore (lossyEnv 2).template (lossyManifest 2) =
        .ok lossyVerdict ∧ targetShards (lossyManifest 2) = 2 ∧
      ∀ i ∈ [0, 1], i ∈ (lossyManifest 2).shards.map ShardManifest.index ∧
        ∀ frag ∈ findShard (lossyManifest 2) i,
          fragmentKey lossySource.cluster lossySource.backup frag =
            shardRDBKey lossySource.cluster lossySource.backup i := by
    decide +kernel
  obtain ⟨haccepted, hcount, hindexes⟩ := hfacts
  have hbelow : ∀ i : Int, 0 ≤ i → i < targetShards (lossyManifest 2) → i ∈ [0, 1] := by
    intro i hlow hhigh
    rw [hcount] at hhigh
    have : i = 0 ∨ i = 1 := by omega
    simpa using this
  refine ⟨haccepted, rfl, (accepted_seeds_iff _ _ _ _ _ _ _ _ lossyRestore (lossyTarget 2)
    haccepted hread rfl rfl (lossyTarget_created 2)).mpr ⟨?_, ?_⟩⟩
  · exact fun i hlow hhigh => (hindexes i (hbelow i hlow hhigh)).1
  · exact fun i hlow hhigh frag hfind => (hindexes i (hbelow i hlow hhigh)).2 frag hfind

/-- The set that lost its first shard is accepted as well, and the target has a shard 0
that no fragment is there for. -/
theorem accepted_lacks_first :
    validateCompat lossyRestore.restore (lossyEnv 0).template (lossyManifest 0) = .ok lossyVerdict ∧
    Readable textCodec headerStore lossySource.cluster
      lossySource.backup (lossyObjects 0) (lossyManifest 0) ∧
    ((createTargetCluster (lossyEnv 0) lossySource (lossyManifest 0)).after
      lossyRestore).cluster = some (lossyTarget 0) ∧ (lossyTarget 0).spec.shards = 2 ∧
    (runDownload headerHash textCodec
      (seedOptions headerStore lossySource.cluster lossySource.backup 0) .whole).outcome
        ⟨⟨lossyObjects 0, []⟩, [], []⟩ = .error { msg := "manifest has no shard 0" } ∧
    ¬ SeedReads headerHash textCodec headerStore lossySource
      (lossyObjects 0) (lossyManifest 0) 0 := by
  have hread : Readable textCodec headerStore lossySource.cluster
      lossySource.backup (lossyObjects 0) (lossyManifest 0) := by
    unfold Readable
    decide +kernel
  have hfacts : validateCompat lossyRestore.restore (lossyEnv 0).template (lossyManifest 0) =
      .ok lossyVerdict ∧ findShard (lossyManifest 0) 0 = none := by
    decide +kernel
  refine ⟨hfacts.1, hread, lossyTarget_created 0, rfl, ?_, ?_⟩
  · unfold Action.outcome
    rw [runDownload_missing hread hfacts.2]
    rfl
  · rintro ⟨frag, hfind, -⟩
    rw [hfacts.2] at hfind
    cases hfind

end ValkeyOperator.Restore

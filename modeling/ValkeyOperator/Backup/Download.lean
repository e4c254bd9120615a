import ValkeyOperator.Backup.Reruns

/-! Download mode of the sidecar (`cmd/valkey-backup/download.go`).

The manifest is read first and says whether the shard is part of the set; the dump is
then fetched under the key that cluster, backup and shard index give, and its hash
compared with the one recorded. What a successful run has stored is read back by this
byte for byte, and nothing else passes for it. -/

namespace ValkeyOperator.Backup
open Text ValkeyOperator.Stream Valkey

variable {copied : Copied} {w w' : DownloadWorld} {i : Int} {man : Manifest} {frag : ShardManifest}
  {backup cluster : Str}

/-- What a download works on: the store, the keys it has asked the store for, and the
file it writes. -/
structure DownloadWorld where
  bucket : Bucket
  asked : List Str := []
  dst : Bytes := []

structure DownloadOptions where
  cluster : Str
  backupName : Str
  shardIndex : Int
  store : Option Backend
  /-- whether there is a destination -/
  hasDst : Bool := true

/-- How copying to the destination goes: all of it, or a number of bytes and then an
error of the reader or the writer. -/
inductive Copied where
  | whole
  | broken (written : Nat) (cause : Str)

/-- A call of the store for one key. -/
def onStore {α : Type} (key : Str) (a : Action Bucket α) : Action DownloadWorld α := fun w =>
  match a w.bucket with
  | .ok x v => .ok x { w with bucket := v, asked := w.asked ++ [key] }
  | .error e v => .error e { w with bucket := v, asked := w.asked ++ [key] }

def copyTo (copied : Copied) (key : Str) (bs : Bytes) : Action DownloadWorld Unit := fun w =>
  match copied with
  | .whole => .ok () { w with dst := w.dst ++ bs }
  | .broken n cause =>
    .error { msg := "stream " ++ key ++ ": " ++ cause } { w with dst := w.dst ++ bs.take n }

def findShard (man : Manifest) (shardIndex : Int) : Option ShardManifest :=
  man.shards.find? fun s => s.index == shardIndex

section Download

variable (sha256 : Bytes → Str) (codec : Codec)

/-- Fetch the dump of a fragment that was found, and compare its hash. -/
def downloadShard (b : Backend) (o : DownloadOptions) (copied : Copied) (frag : ShardManifest) :
    Action DownloadWorld Unit := do
  let key := shardRDBKey o.cluster o.backupName o.shardIndex
  let bs ← (onStore key (b.get key)).mapErr (Err.wrap ("get " ++ key))
  copyTo copied key bs
  let got := sha256 bs
  if frag.sha256 ≠ [] ∧ got ≠ frag.sha256 then
    throw { msg := "shard " ++ itoa o.shardIndex ++ " sha256 mismatch: got " ++ got ++
      " want " ++ frag.sha256 }
  else pure ()

def runDownload (o : DownloadOptions) (copied : Copied) : Action DownloadWorld Unit :=
  match o.store with
  | none => throw { msg := "download: nil store" }
  | some b =>
    if !o.hasDst then throw { msg := "download: nil destination" }
    else do
      let key := manifestKey o.cluster o.backupName
      let man ← (onStore key (readManifest codec b key)).mapErr (Err.wrap "read manifest")
      match findShard man o.shardIndex with
      | none => throw { msg := "manifest has no shard " ++ itoa o.shardIndex }
      | some frag => downloadShard sha256 b o copied frag

/-! ## What a download does -/

variable {sha256 codec} {b : Backend} {objects : Objects}

theorem readManifest_of_readable (h : Readable codec b cluster backup objects man) :
    readManifest codec b (manifestKey cluster backup) ⟨objects, []⟩ = .ok man ⟨objects, []⟩ := by
  obtain ⟨data, hdata, hunmarshal⟩ := readable_iff.mp h
  have hget : b.get (manifestKey cluster backup) ⟨objects, []⟩ = .ok data ⟨objects, []⟩ := by
    simp [Backend.get, Bucket.reply, Bucket.called, hdata]
  unfold readManifest
  rw [Action.bind_ok hget, hunmarshal]
  rfl

/-- The options of the sidecar that seeds a shard. -/
def seedOptions (b : Backend) (cluster backup : Str) (shardIndex : Int) : DownloadOptions where
  cluster := cluster
  backupName := backup
  shardIndex := shardIndex
  store := some b

section Readable

variable {cluster backup : Str} {man : Manifest}
  (hread : Readable codec b cluster backup objects man)

include hread

theorem fetchManifest_of_readable :
    Action.Returns
      (Action.mapErr (Err.wrap "read manifest") (onStore (manifestKey cluster backup)
        (readManifest codec b (manifestKey cluster backup))))
      ⟨⟨objects, []⟩, [], []⟩ man ⟨⟨objects, []⟩, [manifestKey cluster backup], []⟩ := by
  refine Action.Returns.under_mapErr ?_ _
  unfold Action.Returns onStore
  dsimp only
  rw [readManifest_of_readable hread]
  rfl

theorem runDownload_missing (hfind : findShard man i = none) (copied : Copied) :
    runDownload sha256 codec (seedOptions b cluster backup i) copied ⟨⟨objects, []⟩, [], []⟩ =
      .error { msg := "manifest has no shard " ++ itoa i }
        ⟨⟨objects, []⟩, [manifestKey cluster backup], []⟩ := by
  refine (Action.bind_ok (fetchManifest_of_readable hread) _).trans ?_
  have hfind' : findShard man (seedOptions b cluster backup i).shardIndex = none := hfind
  rw [hfind']
  rfl

theorem runDownload_found (hfind : findShard man i = some frag) (copied : Copied) :
    runDownload sha256 codec (seedOptions b cluster backup i) copied ⟨⟨objects, []⟩, [], []⟩ =
      downloadShard sha256 b (seedOptions b cluster backup i) copied frag
        ⟨⟨objects, []⟩, [manifestKey cluster backup], []⟩ := by
  refine (Action.bind_ok (fetchManifest_of_readable hread) _).trans ?_
  have hfind' : findShard man (seedOptions b cluster backup i).shardIndex = some frag := hfind
  rw [hfind']

end Readable

theorem get_returns {key : Str} {bs : Bytes} {w w' : Bucket}
    (h : Action.Returns (b.get key) w bs w') :
    w.objects.lookup (b.fullKey key) = some bs ∧ w'.objects = w.objects := by
  unfold Action.Returns Backend.get at h
  split at h
  · split at h
    · rename_i hlookup
      cases h
      exact ⟨hlookup, rfl⟩
    · cases h
  · cases h
  · cases h

theorem readManifest_returns {w w' : Bucket}
    (h : Action.Returns (readManifest codec b (manifestKey cluster backup)) w man w') :
    Readable codec b cluster backup w.objects man ∧ w'.objects = w.objects := by
  obtain ⟨data, v, hget, hrest⟩ := Action.Returns.bind h
  obtain ⟨hlookup, hkept⟩ := get_returns hget
  cases hunmarshal : unmarshalManifest codec data with
  | error e =>
    rw [hunmarshal] at hrest
    exact absurd hrest Action.Returns.not_throw
  | ok m =>
    rw [hunmarshal] at hrest
    obtain ⟨rfl, rfl⟩ := Action.Returns.pure hrest
    exact ⟨readable_iff.mpr ⟨data, hlookup, hunmarshal⟩, hkept⟩

theorem onStore_returns {α : Type} {key : Str} {a : Action Bucket α} {x : α}
    (h : Action.Returns (onStore key a) w x w') :
    ∃ v, Action.Returns a w.bucket x v ∧ w' = ⟨v, w.asked ++ [key], w.dst⟩ := by
  unfold Action.Returns onStore at h
  split at h
  · rename_i y v hy
    cases h
    exact ⟨v, hy, rfl⟩
  · cases h

theorem copyTo_returns {key : Str} {bs : Bytes}
    (h : Action.Returns (copyTo copied key bs) w () w') : w'.dst = w.dst ++ bs := by
  cases copied with
  | whole =>
    cases h
    rfl
  | broken n cause => cases h

/-- The dump is the stored one, and the hash recorded for it, if any, is its hash. -/
theorem downloadShard_returns
    (h : Action.Returns (downloadShard sha256 b (seedOptions b cluster backup i) copied frag) w ()
      w') :
    ∃ bs, w.bucket.objects.lookup (b.fullKey (shardRDBKey cluster backup i)) = some bs ∧
      (frag.sha256 = [] ∨ sha256 bs = frag.sha256) ∧ w'.dst = w.dst ++ bs := by
  obtain ⟨bs, v, hfetch, hcopied⟩ := Action.Returns.bind h
  obtain ⟨v₁, hget, rfl⟩ := onStore_returns hfetch.mapErr
  obtain ⟨u, v₂, hcopy, hcompared⟩ := Action.Returns.bind hcopied
  have hdst := copyTo_returns hcopy
  refine ⟨bs, (get_returns hget).1, ?_⟩
  dsimp only at hcompared
  split at hcompared
  · exact absurd hcompared Action.Returns.not_throw
  · rename_i hmatch
    obtain ⟨-, rfl⟩ := Action.Returns.pure hcompared
    rw [not_and_or, not_not, not_not] at hmatch
    exact ⟨hmatch, hdst⟩

/-- A download that returns has written the stored dump of a shard that the manifest
lists, with the hash recorded there. -/
theorem runDownload_returns {script : List Reply}
    (h : Action.Returns (runDownload sha256 codec (seedOptions b cluster backup i) copied)
      ⟨⟨objects, script⟩, [], []⟩ () w') :
    ∃ man frag bs, Readable codec b cluster backup objects man ∧ findShard man i = some frag ∧
      objects.lookup (b.fullKey (shardRDBKey cluster backup i)) = some bs ∧
      (frag.sha256 = [] ∨ sha256 bs = frag.sha256) ∧ w'.dst = bs := by
  obtain ⟨man, v, hfetch, hrest⟩ := Action.Returns.bind h
  obtain ⟨v₁, hman, rfl⟩ := onStore_returns hfetch.mapErr
  obtain ⟨hread, hkept⟩ := readManifest_returns hman
  cases hfind : findShard man i with
  | none =>
    have hfind' : findShard man (seedOptions b cluster backup i).shardIndex = none := hfind
    rw [hfind'] at hrest
    exact absurd hrest Action.Returns.not_throw
  | some frag =>
    have hfind' : findShard man (seedOptions b cluster backup i).shardIndex = some frag := hfind
    rw [hfind'] at hrest
    obtain ⟨bs, hlookup, hhash, hdst⟩ := downloadShard_returns hrest
    dsimp only at hlookup hdst
    rw [hkept] at hlookup
    exact ⟨man, frag, bs, hread, hfind, hlookup, hhash, hdst⟩

theorem keeps_asked_copyTo {asked : List Str} (copied : Copied) (key : Str) (bs : Bytes) :
    Action.Keeps (fun w => w.asked = asked) (copyTo copied key bs) fun _ => True := by
  intro w hw
  cases copied <;> exact ⟨hw, fun _ _ => trivial⟩

/-- Whichever way it ends, fetching a dump asks the store for the key that the shard's
index gives. -/
theorem asked_downloadShard (cluster backup : Str) (i : Int) (copied : Copied)
    (frag : ShardManifest) (w : DownloadWorld) :
    ((downloadShard sha256 b (seedOptions b cluster backup i) copied frag).after w).asked =
      w.asked ++ [shardRDBKey cluster backup i] := by
  cases hget : b.get (shardRDBKey cluster backup i) w.bucket with
  | error e v =>
    have hfetch : onStore (shardRDBKey cluster backup i) (b.get (shardRDBKey cluster backup i)) w =
        .error e ⟨v, w.asked ++ [shardRDBKey cluster backup i], w.dst⟩ := by
      simp [onStore, hget]
    exact congrArg DownloadWorld.asked (Action.after_bind_error (Action.mapErr_error hfetch _) _)
  | ok bs v =>
    have hfetch : Action.Returns
        (onStore (shardRDBKey cluster backup i) (b.get (shardRDBKey cluster backup i))) w bs
        ⟨v, w.asked ++ [shardRDBKey cluster backup i], w.dst⟩ := by
      simp [Action.Returns, onStore, hget]
    refine (congrArg DownloadWorld.asked ((hfetch.under_mapErr _).after_bind _)).trans ?_
    refine ((keeps_asked_copyTo copied _ bs).bind (R := fun _ => True) fun _ _ => ?_).after rfl
    dsimp only
    split
    · exact Action.Keeps.throw _
    · exact Action.Keeps.pure trivial

theorem downloadShard_stored {bs : Bytes}
    (hlookup : objects.lookup (b.fullKey (shardRDBKey cluster backup i)) = some bs)
    (hhash : sha256 bs = frag.sha256) (asked : List Str) :
    downloadShard sha256 b (seedOptions b cluster backup i) .whole frag ⟨⟨objects, []⟩, asked, []⟩ =
      .ok () ⟨⟨objects, []⟩, asked ++ [shardRDBKey cluster backup i], bs⟩ := by
  have hget : b.get (shardRDBKey cluster backup i) ⟨objects, []⟩ = .ok bs ⟨objects, []⟩ := by
    simp [Backend.get, Bucket.reply, Bucket.called, hlookup]
  have hfetch : Action.Returns
      (onStore (shardRDBKey cluster backup i) (b.get (shardRDBKey cluster backup i)))
      ⟨⟨objects, []⟩, asked, []⟩ bs
      ⟨⟨objects, []⟩, asked ++ [shardRDBKey cluster backup i], []⟩ := by
    simp [Action.Returns, onStore, hget]
  have hcopy : Action.Returns (copyTo .whole (shardRDBKey cluster backup i) bs)
      ⟨⟨objects, []⟩, asked ++ [shardRDBKey cluster backup i], []⟩ ()
      ⟨⟨objects, []⟩, asked ++ [shardRDBKey cluster backup i], bs⟩ := rfl
  refine (hfetch.under_mapErr _).then (hcopy.then ?_)
  dsimp only
  rw [if_neg fun hmismatch => hmismatch.2 hhash]
  rfl

end Download

/-! ## Backup, then download -/

/-- A manifest of no version yet is stamped with one that can be read. -/
theorem unmarshal_marshalManifest {codec : Codec} {data : Bytes}
    (hversion : man.schemaVersion = 0) (h : marshalManifest codec.marshalIndent man = .ok data) :
    ∃ stamped, unmarshalManifest codec data = .ok stamped ∧ stamped.shards = man.shards := by
  obtain ⟨stamped, hshards, hstamped, hmarshal⟩ := marshalManifest_ok h
  refine ⟨stamped, ?_, hshards⟩
  unfold unmarshalManifest
  rw [codec.round_trip hmarshal]
  dsimp only
  rw [if_neg (by rw [hstamped hversion]; exact lt_irrefl _)]

section RoundTrip

variable {ρ : Type} {sha256 : Bytes → Str} {codec : Codec} {S : Sorter ShardPrimary}
  {S' : Sorter SlotRange} {b : Backend} {cluster backup : Str}

/-- The dump of a shard as a manifest lists it and as it is stored. -/
structure StoredDump (sha256 : Bytes → Str) (b : Backend) (cluster backup : Str) (r : SetRun ρ)
    (objects : Objects) (frag : ShardManifest) (dump : Bytes) : Prop where
  streamed : ∃ sp ∈ r.shards, ∃ stream length, r.source.openStream sp = .ok (stream, length) ∧
    r.source.reader.ending stream = .eof ∧ r.source.reader.content stream = dump ∧
    frag = fragment sha256 sp dump
  stored : objects.lookup (b.fullKey (shardRDBKey cluster backup frag.index)) = some dump

/-- A run that succeeds leaves a manifest that can be read, and all that it lists; a
strict one lists every shard. -/
theorem runBackup_lists (hapart : KeepsApart b cluster backup) (r : SetRun ρ) (before : Objects)
    (hok : (runBackup sha256 codec.marshalIndent S S' (r.options b cluster backup)).outcome
      ⟨⟨before, r.script⟩, []⟩ = .ok ()) :
    let objects := ((runBackup sha256 codec.marshalIndent S S' (r.options b cluster backup)).after
      ⟨⟨before, r.script⟩, []⟩).bucket.objects
    ∃ man, Readable codec b cluster backup objects man ∧
      (man.shards.map ShardManifest.index).Nodup ∧
      (∀ frag ∈ man.shards, ∃ dump, StoredDump sha256 b cluster backup r objects frag dump) ∧
      (r.consistency ≠ consistencyBestEffort →
        (man.shards.map ShardManifest.index).Perm (r.shards.map ShardPrimary.index)) := by
  intro objects
  obtain ⟨attempts, v, hup, hends⟩ := runBackup_journal sha256 b (r.options b cluster backup)
    r.source codec.marshalIndent S S' rfl rfl ⟨⟨before, r.script⟩, []⟩
  rcases hends with ⟨e, hfailed⟩ | ⟨man, last, j', hman, hversion, hseals, hext, hend⟩
  · unfold Action.outcome at hok
    rw [hfailed] at hok
    cases hok
  rcases hend with ⟨hacked, hrun⟩ | ⟨e, -, hfailed⟩
  swap
  · unfold Action.outcome at hok
    rw [hfailed] at hok
    cases hok
  have hobjects : objects = (objectsAfter before (attempts.map Prod.snd)).insert
      (b.fullKey (manifestKey cluster backup)) last.bytes := by
    have hafter : objects = j'.bucket.objects :=
      congrArg (fun j : Journal => j.bucket.objects) (Action.Returns.after_eq hrun)
    rw [hafter, hext.objects]
    rcases hext.stores with hstored | ⟨hrefused, -⟩
    · rw [hstored, hup.objects, hseals.key]
      rfl
    · rw [hacked] at hrefused
      cases hrefused
  obtain ⟨stamped, hunmarshal, hshards⟩ := unmarshal_marshalManifest hversion hseals.bytes
  have hranked : (attempts.map (·.1.index)).Nodup := hup.ranked r.ranked
  have hindex : stamped.shards.map ShardManifest.index = (taken attempts).map (·.1.index) := by
    rw [hshards, hman.listed]
    unfold recorded
    rw [List.map_map]
    rfl
  refine ⟨stamped, readable_iff.mpr ⟨last.bytes, ?_, hunmarshal⟩, ?_, fun frag hfrag => ?_,
    fun hstrict => ?_⟩
  · rw [hobjects, AList.lookup_insert]
  · rw [hindex]
    exact (List.filter_sublist.map _).nodup hranked
  · rw [hshards, hman.listed] at hfrag
    obtain ⟨a, ha, rfl⟩ := List.mem_map.mp hfrag
    obtain ⟨hmem, htaken⟩ := List.mem_filter.mp ha
    obtain ⟨stream, length, hopen, hbytes, hclean⟩ := (hup.attempted a hmem).stream
    refine ⟨a.2.bytes, ⟨a.1, ?_, stream, length, hopen, hclean htaken, hbytes.symm, rfl⟩, ?_⟩
    · exact S.mem_sort.mp (hup.within.subset (List.mem_map_of_mem hmem))
    · rw [hobjects, AList.lookup_insert_ne (hapart.manifest _)]
      exact hup.chained.lookup_taken hapart (fun a ha => (hup.attempted a ha).key) hranked ha
  · obtain ⟨hall, htaken, -⟩ := hman.strict hstrict
    have hperm : (attempts.map Prod.fst).Perm r.shards := hall ▸ S.perm _ _
    rw [hindex, htaken]
    simpa [Function.comp_def] using hperm.map ShardPrimary.index

theorem runBackup_stored (hapart : KeepsApart b cluster backup) (r : SetRun ρ) (before : Objects)
    (hok : (runBackup sha256 codec.marshalIndent S S' (r.options b cluster backup)).outcome
      ⟨⟨before, r.script⟩, []⟩ = .ok ()) :
    let objects := ((runBackup sha256 codec.marshalIndent S S' (r.options b cluster backup)).after
      ⟨⟨before, r.script⟩, []⟩).bucket.objects
    ∃ man, Readable codec b cluster backup objects man ∧
      (man.shards.map ShardManifest.index).Nodup ∧
      ∀ frag ∈ man.shards, ∃ dump, StoredDump sha256 b cluster backup r objects frag dump := by
  intro objects
  obtain ⟨man, hread, hdistinct, hall, -⟩ := runBackup_lists hapart r before hok
  exact ⟨man, hread, hdistinct, hall⟩

theorem findShard_of_mem (hdistinct : (man.shards.map ShardManifest.index).Nodup)
    (hfrag : frag ∈ man.shards) : findShard man frag.index = some frag := by
  unfold findShard
  cases hfind : man.shards.find? fun s => s.index == frag.index with
  | none => exact absurd (List.find?_eq_none.mp hfind frag hfrag) (by simp)
  | some found =>
    have hindex : found.index = frag.index := by simpa using List.find?_some hfind
    rw [List.inj_on_of_nodup_map hdistinct (List.mem_of_find?_eq_some hfind) hfrag hindex]

variable (sha256 codec S S')

/-- Of a run that succeeds every shard that was recorded can be downloaded, and gives the
bytes its primary streamed; where other bytes are stored for it by then, or none, its
download fails. -/
theorem download_of_backup (kind : BackendKind) (readSize : Nat → Nat) (c n : ObjectName)
    (r : SetRun ρ) (before : Objects) (hcollision : Function.Injective sha256)
    (hdigest : ∀ bs, sha256 bs ≠ [])
    (hok : (runBackup sha256 codec.marshalIndent S S'
      (r.options (kind.open readSize) c.val n.val)).outcome ⟨⟨before, r.script⟩, []⟩ = .ok ()) :
    let b := kind.open readSize
    let objects := ((runBackup sha256 codec.marshalIndent S S'
      (r.options b c.val n.val)).after ⟨⟨before, r.script⟩, []⟩).bucket.objects
    let download := fun i => runDownload sha256 codec (seedOptions b c.val n.val i)
    ∃ man, Readable codec b c.val n.val objects man ∧ ∀ frag ∈ man.shards,
      ∃ sp ∈ r.shards, ∃ stream length, sp.index = frag.index ∧
        r.source.openStream sp = .ok (stream, length) ∧
        (∃ asked, download frag.index .whole ⟨⟨objects, []⟩, [], []⟩ =
          .ok () ⟨⟨objects, []⟩, asked, r.source.reader.content stream⟩) ∧
        ∀ altered script copied,
          altered.lookup (b.fullKey (manifestKey c.val n.val)) =
            objects.lookup (b.fullKey (manifestKey c.val n.val)) →
          altered.lookup (b.fullKey (shardRDBKey c.val n.val frag.index)) ≠
            some (r.source.reader.content stream) →
          ∃ e, (download frag.index copied).outcome ⟨⟨altered, script⟩, [], []⟩ = .error e := by
  intro b objects download
  obtain ⟨man, hread, hdistinct, hall⟩ := runBackup_stored (keepsApart kind readSize c n) r before hok
  refine ⟨man, hread, fun frag hfrag => ?_⟩
  obtain ⟨dump, ⟨sp, hsp, stream, length, hopen, -, hcontent, hrecorded⟩, hstored⟩ := hall frag hfrag
  have hfind := findShard_of_mem hdistinct hfrag
  have hhash : frag.sha256 = sha256 dump := by rw [hrecorded]; rfl
  refine ⟨sp, hsp, stream, length, by rw [hrecorded]; rfl, hopen, ?_, ?_⟩
  · rw [hcontent]
    exact ⟨_, (runDownload_found hread hfind .whole).trans
      (downloadShard_stored hstored hhash.symm _)⟩
  · intro altered script copied hmanifest hdump
    rw [hcontent] at hdump
    cases hout : (download frag.index copied).outcome ⟨⟨altered, script⟩, [], []⟩ with
    | error e => exact ⟨e, rfl⟩
    | ok u =>
      exfalso
      obtain ⟨w', hreturns⟩ := Action.Returns.of_outcome hout
      obtain ⟨man', frag', bs, hread', hfind', hlookup, hmatch, -⟩ := runDownload_returns hreturns
      -- the manifest is the one that was written, and with it the recorded hash
      have hsame : man' = man := by
        rw [readable_iff, hmanifest, ← readable_iff] at hread'
        exact hread'.unique hread
      rw [hsame, hfind] at hfind'
      obtain rfl := Option.some.inj hfind'
      rw [hhash] at hmatch
      obtain rfl := hcollision (hmatch.resolve_left (hdigest dump))
      exact hdump hlookup

end RoundTrip

/-- A hash of which one value is known; other contents are told apart by themselves. -/
def knownDigest (dump digest : Bytes) (bs : Bytes) : Str := if bs = dump then digest else 'x' :: bs

theorem knownDigest_injective {dump digest : Bytes} (h : digest.head? ≠ some 'x') :
    Function.Injective (knownDigest dump digest) := by
  intro x y hxy
  unfold knownDigest at hxy
  split at hxy <;> split at hxy
  · simp_all
  · exact absurd (congrArg List.head? hxy) h
  · exact absurd (congrArg List.head? hxy.symm) h
  · exact (List.cons.inj hxy).2

def rdbHeader : Bytes := "REDIS0011"

def rdbHeaderDigest : Bytes :=
  "aa0c5ee432abdbcd84e07a173d094cb54ea17c2561aa8a43ec9c214338966573"

def headerHash : Bytes → Str := knownDigest rdbHeader rdbHeaderDigest

def headerManifest : Manifest :=
  { oneShardManifest rdbHeader with shards := [fragment headerHash onePrimary rdbHeader] }

def headerStore : Backend := (BackendKind.cloud .s3 []).open fun _ => 1

/-- A backup of one shard whose dump is a mere header. -/
def headerBackup : Action Journal Unit :=
  runBackup headerHash textCodec.marshalIndent .insertion .insertion
    ((oneShardRun rdbHeader 2).options headerStore "prod" "bk-1")

def headerObjects : Objects := (headerBackup.after ⟨⟨∅, []⟩, []⟩).bucket.objects

def headerDownload : Action DownloadWorld Unit :=
  runDownload headerHash textCodec
    (seedOptions headerStore "prod" "bk-1" 0) .whole

theorem headerHash_ne_nil (bs : Bytes) : headerHash bs ≠ [] := by
  unfold headerHash knownDigest
  split
  · decide
  · exact List.cons_ne_nil _ _

theorem download_of_backup_header :
    headerBackup.outcome ⟨⟨∅, []⟩, []⟩ = .ok () ∧
    (∃ asked, headerDownload ⟨⟨headerObjects, []⟩, [], []⟩ =
      .ok () ⟨⟨headerObjects, []⟩, asked, rdbHeader⟩) ∧
    ∃ e, headerDownload.outcome ⟨⟨headerObjects.insert "prod/bk-1/shard-0/dump.rdb"
      "REDIS0012", []⟩, [], []⟩ = .error e := by
  have hok : headerBackup.outcome ⟨⟨∅, []⟩, []⟩ = .ok () := by decide +kernel
  have hkeys : headerStore.fullKey (manifestKey "prod" "bk-1") ≠
        "prod/bk-1/shard-0/dump.rdb" ∧
      headerStore.fullKey (shardRDBKey "prod" "bk-1" 0) = "prod/bk-1/shard-0/dump.rdb" := by
    decide +kernel
  obtain ⟨man, hread, hall⟩ := download_of_backup headerHash textCodec
    .insertion .insertion (.cloud .s3 []) (fun _ => 1) ⟨"prod", by decide +kernel⟩
    ⟨"bk-1", by decide +kernel⟩ (oneShardRun rdbHeader 2) ∅
    (knownDigest_injective (by decide)) headerHash_ne_nil hok
  have hsame : man = headerManifest := hread.unique (by unfold Readable; decide +kernel)
  have hfrag : fragment headerHash onePrimary rdbHeader ∈ man.shards := by
    rw [hsame]
    exact List.mem_singleton.mpr rfl
  obtain ⟨sp, -, stream, length, -, hopen, hwritten, haltered⟩ := hall _ hfrag
  obtain rfl : (rdbHeader, End.eof) = stream := congrArg Prod.fst (Except.ok.inj hopen)
  have hother : AList.lookup (headerStore.fullKey (shardRDBKey "prod" "bk-1" 0))
      (headerObjects.insert "prod/bk-1/shard-0/dump.rdb" "REDIS0012") ≠ some rdbHeader := by
    rw [hkeys.2, AList.lookup_insert]
    decide
  exact ⟨hok, hwritten, haltered _ [] .whole (AList.lookup_insert_ne hkeys.1) hother⟩

end ValkeyOperator.Backup

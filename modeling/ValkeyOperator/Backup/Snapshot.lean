import ValkeyOperator.Lib.SortFunc
import ValkeyOperator.Backup.Store
import ValkeyOperator.Valkey.Slots

/-! Taking a backup (`cmd/valkey-backup/backup.go`, `rdbsource.go`).

The Job attaches to each shard's primary as a replica, reads the announced
length of the dump from the bulk header and streams that many bytes at most
into the store, hashing and counting on the way. The manifest is written last. -/

namespace ValkeyOperator.Backup
open Text ValkeyOperator.Stream Valkey

/-! ## The replication connection -/

def endErr : End → Err
  | .eof => { msg := "EOF" }
  | .failed m => { msg := m }

section Connection

variable {σ : Type} (R : Reader σ)

/-- One protocol line without its line end. -/
def readLine (s : Buffered σ) : Except Err Str × Buffered σ :=
  match readUntil R '\n' s with
  | none => (.error { msg := "no progress" }, s)
  | some (.error e, s') => (.error (endErr e), s')
  | some (.ok line, s') => (.ok (line.rdropWhile fun c => c == '\n' || c == '\r'), s')

/-- The length a bulk header `$<len>` announces. -/
def bulkLength (line : Str) : Except Err Int :=
  match line with
  | '$' :: lenStr =>
    if hasPrefix lenStr ['E'] then
      .error { msg := "diskless SYNC ($EOF) not supported in v1alpha1" }
    else
      match parseInt "strconv.ParseInt" lenStr with
      | .error e =>
        .error { msg := "parse RDB length " ++ quote lenStr ++ ": " ++ e }
      | .ok length =>
        if length < 0 then .error { msg := "negative RDB length " ++ itoa length }
        else .ok length
  | _ => .error { msg := "unexpected SYNC reply " ++ quote line ++ " (want $<len>)" }

def readBulkHeader (s : Buffered σ) : Except Err Int × Buffered σ :=
  match readLine R s with
  | (.error e, s') => (.error e, s')
  | (.ok line, s') => (bulkLength line, s')

/-- A dialled connection: what the peer sends, and how our two writes fare. -/
structure Conn (σ : Type) where
  input : σ
  writeAuth : Option Err := none
  writeSync : Option Err := none

structure SyncRDBSource (σ : Type) where
  addr : Str
  password : Str
  dial : Except Err (Conn σ)

/-- AUTH when a password is set; anything but a `+` reply rejects it. -/
def authenticate (src : SyncRDBSource σ) (conn : Conn σ) (s : Buffered σ) :
    Except Err Unit × Buffered σ :=
  if src.password = [] then (.ok (), s)
  else
    match conn.writeAuth with
    | some e => (.error (e.wrap "write AUTH"), s)
    | none =>
      match readLine R s with
      | (.error e, s') => (.error (e.wrap "read AUTH reply"), s')
      | (.ok line, s') =>
        if hasPrefix line ['+'] then (.ok (), s')
        else (.error { msg := "AUTH rejected: " ++ line }, s')

/-- Dial, authenticate, ask for the dump and read its announced length. The
stream returned is limited to that length. -/
def SyncRDBSource.openStream (src : SyncRDBSource σ) :
    Except Err ((Buffered σ × Nat) × Int) :=
  match src.dial with
  | .error e => .error (e.wrap ("dial " ++ src.addr))
  | .ok conn =>
    match authenticate R src conn (Buffered.fresh conn.input) with
    | (.error e, _) => .error e
    | (.ok (), s) =>
      match conn.writeSync with
      | some e => .error (e.wrap "write SYNC")
      | none =>
        match readBulkHeader R s with
        | (.error e, _) => .error (e.wrap "read RDB bulk header")
        | (.ok length, s') => .ok ((s', length.toNat), length)

/-- The reader behind an opened stream. -/
def rdbReader : Reader (Buffered σ × Nat) := limited (buffered R)

theorem bulkLength_nonneg {line : Str} {length : Int} (h : bulkLength line = .ok length) :
    0 ≤ length := by
  unfold bulkLength at h
  split at h
  · split at h
    · cases h
    · split at h
      · cases h
      · split at h
        · cases h
        · cases h; omega
  · cases h

theorem SyncRDBSource.openStream_limit {src : SyncRDBSource σ} {st : Buffered σ × Nat}
    {length : Int} (h : src.openStream R = .ok (st, length)) : (st.2 : Int) = length := by
  unfold SyncRDBSource.openStream at h
  cases hd : src.dial with
  | error e => rw [hd] at h; cases h
  | ok conn =>
    simp only [hd] at h
    rcases ha : authenticate R src conn (Buffered.fresh conn.input) with ⟨_ | _, s⟩
    · simp [ha] at h
    · simp only [ha] at h
      cases hw : conn.writeSync with
      | some e => simp [hw] at h
      | none =>
        simp only [hw] at h
        unfold readBulkHeader at h
        rcases hl : readLine R s with ⟨_ | line, s'⟩
        · simp [hl] at h
        · simp only [hl] at h
          cases hb : bulkLength line with
          | error e => simp [hb] at h
          | ok n =>
            simp only [hb, Except.ok.injEq, Prod.mk.injEq] at h
            have := bulkLength_nonneg hb
            obtain ⟨rfl, rfl⟩ := h
            exact Int.toNat_of_nonneg this

/-- A line the connection sends in full is read whole, and reading goes on
behind it. -/
theorem readLine_found {s : Buffered σ} {line rest : Str} (hline : '\n' ∉ line)
    (hc : (buffered R).content s = line ++ '\n' :: rest) :
    ∃ s', readLine R s = (.ok (line.rdropWhile fun c => c == '\n' || c == '\r'), s') ∧
      (buffered R).content s' = rest ∧ (buffered R).ending s' = (buffered R).ending s := by
  obtain ⟨s', hs', hrest, hend⟩ := readUntilFuel_found R _ [] s hline hc (Nat.lt_succ_self _)
  refine ⟨s', ?_, hrest, hend⟩
  have htrim : (line ++ ['\n']).rdropWhile (fun c => c == '\n' || c == '\r') =
      line.rdropWhile fun c => c == '\n' || c == '\r' :=
    List.rdropWhile_concat_pos _ _ _ (by decide)
  simp [readLine, readUntil, hs', htrim]

theorem bulkLength_itoa {n : Nat} (h : n < 2 ^ 63) :
    bulkLength ('$' :: itoa n) = .ok (n : Int) := by
  have hE : hasPrefix (itoa n) ['E'] = false := by
    rw [itoa_natCast]
    cases hd : Nat.toDigits 10 n with
    | nil => rfl
    | cons c t =>
      have hc : c.isDigit = true :=
        Nat.isDigit_of_mem_toDigits (n := n) (b := 10) (by omega) (by omega) (by simp [hd])
      have hne : ¬ 'E' = c := by rintro rfl; exact absurd hc (by decide)
      simp [hasPrefix, List.isPrefixOf, hne]
  have hparse : parseInt "strconv.ParseInt" (itoa n) = .ok (n : Int) := by
    simp only [parseInt, signed?_itoa]
    rw [if_pos ⟨by omega, by exact_mod_cast h⟩]
  simp only [bulkLength, hE, hparse, Bool.false_eq_true, if_false]
  exact if_neg (by omega)

theorem readBulkHeader_found {s : Buffered σ} {n : Nat} {payload : Bytes} (hn : n < 2 ^ 63)
    (hc : (buffered R).content s = '$' :: itoa n ++ '\r' :: '\n' :: payload) :
    ∃ s', readBulkHeader R s = (.ok n, s') ∧ (buffered R).content s' = payload ∧
      (buffered R).ending s' = (buffered R).ending s := by
  have hdigits : ∀ c ∈ itoa n, c.isDigit = true :=
    fun c hc => isDigit_of_mem_itoa (Int.natCast_nonneg n) hc
  have hline : '\n' ∉ '$' :: itoa n ++ ['\r'] := by
    simp only [List.cons_append, List.mem_cons, List.mem_append, List.not_mem_nil, or_false, not_or]
    exact ⟨by decide, fun hm => absurd (hdigits _ hm) (by decide), by decide⟩
  have htrim : ('$' :: itoa n ++ ['\r']).rdropWhile (fun c => c == '\n' || c == '\r') =
      '$' :: itoa n := by
    rw [List.rdropWhile_concat_pos _ _ _ (by decide), List.rdropWhile_eq_self_iff]
    intro hne
    have hmem := List.getLast_mem hne
    rcases List.mem_cons.mp hmem with he | hd
    · rw [he]; decide
    · intro h
      have := hdigits _ hd
      rcases Bool.or_eq_true_iff.mp h with h | h <;> rw [eq_of_beq h] at this <;>
        exact absurd this (by decide)
  obtain ⟨s', hs', hrest, hend⟩ := readLine_found R hline (by simpa using hc)
  rw [htrim] at hs'
  exact ⟨s', by simp [readBulkHeader, hs', bulkLength_itoa hn], hrest, hend⟩

/-- What a peer sends before the dump: with a password, a line that accepts it. -/
def accepts (src : SyncRDBSource σ) (welcome : Bytes) : Bytes :=
  if src.password = [] then [] else '+' :: welcome ++ ['\n']

theorem authenticate_accepted {src : SyncRDBSource σ} {conn : Conn σ} {welcome rest : Bytes}
    (hauth : conn.writeAuth = none) (hwelcome : '\n' ∉ welcome)
    (hc : R.content conn.input = accepts src welcome ++ rest) :
    ∃ s, authenticate R src conn (Buffered.fresh conn.input) = (.ok (), s) ∧
      (buffered R).content s = rest ∧ (buffered R).ending s = R.ending conn.input := by
  unfold authenticate
  unfold accepts at hc
  split at hc
  · rename_i hpw
    exact ⟨_, if_pos hpw, hc, rfl⟩
  · rename_i hpw
    have hfresh : (buffered R).content (Buffered.fresh conn.input) =
        '+' :: welcome ++ '\n' :: rest := by
      simp [buffered, Buffered.fresh, hc]
    obtain ⟨s, hs, hrest, hend⟩ := readLine_found R (by simpa using hwelcome) hfresh
    refine ⟨s, ?_, hrest, hend⟩
    -- trimming the line end leaves the plus
    cases hline : ('+' :: welcome).rdropWhile fun c => c == '\n' || c == '\r' with
    | nil => exact absurd (List.rdropWhile_eq_nil_iff.mp hline '+' List.mem_cons_self) (by decide)
    | cons c t =>
      have hprefix : c :: t <+: '+' :: welcome := hline ▸ List.rdropWhile_prefix _ _
      simp [hpw, hauth, hs, hline, (List.cons_prefix_cons.mp hprefix).1, hasPrefix]

/-- A peer that accepts the password, if one is sent, and answers SYNC with `$<n>` and a
payload opens a stream of announced length `n` over exactly that payload, cut short or not. -/
theorem SyncRDBSource.openStream_header {src : SyncRDBSource σ} {conn : Conn σ} {n : Nat}
    {welcome payload : Bytes} (hdial : src.dial = .ok conn) (hauth : conn.writeAuth = none)
    (hsync : conn.writeSync = none) (hn : n < 2 ^ 63) (hwelcome : '\n' ∉ welcome)
    (hc : R.content conn.input =
      accepts src welcome ++ ('$' :: itoa n ++ '\r' :: '\n' :: payload)) :
    ∃ s, src.openStream R = .ok ((s, n), n) ∧ (buffered R).content s = payload ∧
      (buffered R).ending s = R.ending conn.input := by
  obtain ⟨s, hs, hcont, hend⟩ := authenticate_accepted R hauth hwelcome hc
  obtain ⟨s', hs', hrest, hend'⟩ := readBulkHeader_found R hn hcont
  refine ⟨s', ?_, hrest, hend'.trans hend⟩
  simp [SyncRDBSource.openStream, hdial, hs, hsync, hs']

/-- Nine bytes are announced and five sent. -/
theorem SyncRDBSource.openStream_header_nine :
    let conn : Conn (Bytes × End) := { input := ("+OK\r\n$9\r\nREDIS", .eof) }
    let src : SyncRDBSource (Bytes × End) := ⟨[], "pw", .ok conn⟩
    ∃ s, src.openStream slice = .ok ((s, 9), 9) ∧ (buffered slice).content s = "REDIS" := by
  intro conn src
  have hsent : slice.content conn.input =
      accepts src "OK\r" ++ ('$' :: itoa 9 ++ '\r' :: '\n' :: "REDIS") := rfl
  obtain ⟨s, hs, hpayload, -⟩ := SyncRDBSource.openStream_header slice (n := 9) rfl rfl rfl
    (by decide) (by decide) hsent
  exact ⟨s, hs, hpayload⟩

end Connection

/-! ## One shard -/

/-- A shard's live primary, as the backup loop sees it. -/
structure ShardPrimary where
  index : Int
  nodeID : Str
  addr : Str
  slots : List SlotRange
  replOffset : Int
deriving DecidableEq

/-- Where a shard's dump comes from: how to open it and how to read it. -/
structure RDBSource (ρ : Type) where
  reader : Reader ρ
  openStream : ShardPrimary → Except Err (ρ × Int)

/-- The production source: one replication connection per shard primary. -/
def syncSource {σ : Type} (R : Reader σ) (dial : ShardPrimary → SyncRDBSource σ) :
    RDBSource (Buffered σ × Nat) :=
  ⟨rdbReader R, fun sp => (dial sp).openStream R⟩

structure ShardManifest where
  index : Int
  primaryNodeID : Str
  slotRanges : Str
  rdbKey : Str
  sizeBytes : Int
  sha256 : Str
  masterReplOffset : Int
deriving DecidableEq

structure Manifest where
  schemaVersion : Int := 0
  apiVersion : Str := []
  cluster : Str
  backupName : Str
  mode : Str
  crVersion : Str
  engineVersion : Str
  createdAt : Str
  consistency : Str
  slotCoverage : Str := []
  shards : List ShardManifest := []
deriving DecidableEq

structure BackupOptions (W ρ : Type) where
  cluster : Str
  backupName : Str
  mode : Str
  crVersion : Str
  engineVersion : Str
  consistency : Str
  store : Option (ArtifactStore W)
  shards : List ShardPrimary
  newRDBSource : Option (RDBSource ρ)
  timestamp : Str

/-- The incremental hash: its state is the bytes hashed so far. -/
def hasher : Sink Bytes where
  write t bs := t ++ bs
  write_nil := by simp
  write_append := by simp

/-- The `countingReader`. -/
def counter : Sink Int where
  write n bs := n + bs.length
  write_nil := by simp
  write_append t a b := by simp only [List.length_append]; omega

section Snapshot

variable {W ρ σ : Type} (sha256 : Bytes → Str)

/-- Stream one shard's dump into the store and describe what was read. -/
def snapshotShard (o : BackupOptions W ρ) (store : ArtifactStore W) (source : RDBSource ρ)
    (sp : ShardPrimary) : Action W (ShardManifest × List SlotRange) :=
  match source.openStream sp with
  | .error e => throw (e.wrap "open RDB source")
  | .ok (stream, length) => do
    let key := shardRDBKey o.cluster o.backupName sp.index
    let read ← Action.mapErr (Err.wrap ("upload " ++ key))
      (store.put key (tee (tee source.reader hasher) counter) ((stream, []), 0) length)
    pure ({ index := sp.index
            primaryNodeID := sp.nodeID
            slotRanges := formatSlotRanges sp.slots
            rdbKey := shardRDBRelKey sp.index
            sizeBytes := read.2
            sha256 := sha256 read.1.2
            masterReplOffset := sp.replOffset }, sp.slots)

/-- The fragment recorded for a dump of the given bytes. -/
def fragment (sp : ShardPrimary) (dump : Bytes) : ShardManifest where
  index := sp.index
  primaryNodeID := sp.nodeID
  slotRanges := formatSlotRanges sp.slots
  rdbKey := shardRDBRelKey sp.index
  sizeBytes := dump.length
  sha256 := sha256 dump
  masterReplOffset := sp.replOffset

/-- A snapshot that returns has read its stream to a clean end of file, stored
all of it under the shard's key, and recorded the size and hash of just that. -/
theorem snapshotShard_returns {o : BackupOptions Bucket ρ} {b : Backend} {source : RDBSource ρ}
    {sp : ShardPrimary} {w w' : Bucket} {frag : ShardManifest} {ranges : List SlotRange}
    (h : Action.Returns (snapshotShard sha256 o b.toStore source sp) w (frag, ranges) w') :
    ∃ stream length, source.openStream sp = .ok (stream, length) ∧
      source.reader.ending stream = .eof ∧
      w' = w.called.store (b.fullKey (shardRDBKey o.cluster o.backupName sp.index))
        (source.reader.content stream) ∧
      frag = fragment sha256 sp (source.reader.content stream) ∧ ranges = sp.slots := by
  unfold snapshotShard at h
  cases ho : source.openStream sp with
  | error e =>
    rw [ho] at h
    exact absurd h Action.Returns.not_throw
  | ok opened =>
    obtain ⟨stream, length⟩ := opened
    rw [ho] at h
    obtain ⟨read, v, hput, hret⟩ := Action.Returns.bind h
    obtain ⟨hfrag, hw⟩ := Action.Returns.pure hret
    obtain ⟨hdrain, hv⟩ := b.put_returns (n := length) hput.mapErr
    -- what the two tees saw is what the inner reader was drained of
    rw [drain_tee, drain_tee] at hdrain
    obtain ⟨t, ht⟩ := drain_spec source.reader b.readSize stream
    simp only [ht, Option.map_some, Option.some.injEq, Prod.mk.injEq] at hdrain
    obtain ⟨⟨-, hend⟩, hread⟩ := hdrain
    obtain ⟨hfrag, hranges⟩ := Prod.mk.inj hfrag
    refine ⟨stream, length, rfl, hend, by rw [hw, hv]; rfl, ?_, hranges⟩
    rw [hfrag, ← hread]
    simp [fragment, hasher, counter]

theorem snapshotShard_ok (o : BackupOptions Bucket ρ) (b : Backend) {source : RDBSource ρ}
    {sp : ShardPrimary} {w : Bucket} {stream : ρ} {length : Int}
    (ho : source.openStream sp = .ok (stream, length))
    (he : source.reader.ending stream = .eof) (hw : w.reply = .ok) :
    ∃ frag w', Action.Returns (snapshotShard sha256 o b.toStore source sp) w (frag, sp.slots) w' := by
  obtain ⟨read, hread⟩ := b.put_ok (R := tee (tee source.reader hasher) counter)
    (s := ((stream, []), 0)) (shardRDBKey o.cluster o.backupName sp.index) length he hw
  unfold snapshotShard
  rw [ho]
  exact ⟨_, _, (hread.under_mapErr _).then_pure _⟩

/-- For a shard whose primary announced `length` bytes, a reported success means
that `length` bytes were stored exactly when the connection either delivers
them all or ends with an error: a connection closed early is a clean end of
file to the limited reader, and nobody compares the count with the header. -/
theorem snapshotShard_whole_iff (R : Reader σ) (b : Backend)
    (dial : ShardPrimary → SyncRDBSource σ) (o : BackupOptions Bucket (Buffered σ × Nat))
    (sp : ShardPrimary) {st : Buffered σ × Nat} {length : Int}
    (hopen : (dial sp).openStream R = .ok (st, length)) :
    (∀ w w' frag ranges,
      Action.Returns (snapshotShard sha256 o b.toStore (syncSource R dial) sp) w (frag, ranges) w' →
      ∃ dump, w'.objects.lookup (b.fullKey (shardRDBKey o.cluster o.backupName sp.index)) = some dump ∧
        (dump.length : Int) = length) ↔
    length ≤ ((buffered R).content st.1).length ∨ (buffered R).ending st.1 ≠ .eof := by
  have hlimit := SyncRDBSource.openStream_limit R hopen
  have hcontent : (rdbReader R).content st = ((buffered R).content st.1).take st.2 := rfl
  have hending : (rdbReader R).ending st =
      if st.2 ≤ ((buffered R).content st.1).length then .eof else (buffered R).ending st.1 := rfl
  constructor
  · intro h
    by_contra hcon
    obtain ⟨hshort, heof⟩ := not_or.mp hcon
    have hclean : (rdbReader R).ending st = .eof := by
      rw [hending, if_neg (by omega)]
      exact not_not.mp heof
    have hsource : (syncSource R dial).openStream sp = .ok (st, length) := hopen
    obtain ⟨frag, w', hret⟩ :=
      snapshotShard_ok sha256 o b (w := ⟨∅, []⟩) hsource hclean rfl
    obtain ⟨dump, hdump, hlen⟩ := h _ _ _ _ hret
    obtain ⟨stream, len, ho, -, rfl, -, -⟩ := snapshotShard_returns sha256 hret
    have heq : Except.ok (stream, len) = Except.ok (st, length) := ho.symm.trans hopen
    cases heq
    simp only [Bucket.store, AList.lookup_insert, Option.some.injEq] at hdump
    have : dump.length ≤ ((buffered R).content st.1).length := by
      rw [← hdump]
      exact List.length_take_le' _ _
    omega
  · intro h w w' frag ranges hret
    obtain ⟨stream, len, ho, hend, rfl, -, -⟩ := snapshotShard_returns sha256 hret
    have heq : Except.ok (stream, len) = Except.ok (st, length) := ho.symm.trans hopen
    cases heq
    have hfull : st.2 ≤ ((buffered R).content st.1).length := by
      rcases h with h | h
      · omega
      · by_contra hshort
        have hend' : (rdbReader R).ending st = .eof := hend
        rw [hending, if_neg hshort] at hend'
        exact h hend'
    refine ⟨(rdbReader R).content st, AList.lookup_insert _, ?_⟩
    rw [hcontent, List.length_take_of_le hfull, hlimit]

/-- A peer without authentication that sends the given bytes and closes. -/
def closingPeer (sent : String) : SyncRDBSource (Bytes × End) where
  addr := "10.0.0.7:6379"
  password := []
  dial := .ok { input := (sent.toList, .eof) }

/-- A primary that announces five bytes and sends them meets the condition. -/
theorem snapshotShard_whole_five_bytes :
    let o : BackupOptions Bucket (Buffered (Bytes × End) × Nat) :=
      ⟨"prod", "bk-1", [], [], [], [], none, [], none, []⟩
    let sp : ShardPrimary := ⟨0, [], [], [], 0⟩
    ∀ w w' frag ranges,
      Action.Returns (snapshotShard hexChecksum o (gcsStore [] fun _ => 1).toStore
        (syncSource slice fun _ => closingPeer "$5\r\nREDIS") sp) w (frag, ranges) w' →
      ∃ dump, w'.objects.lookup "prod/bk-1/shard-0/dump.rdb".toList = some dump ∧
        (dump.length : Int) = 5 := by
  have hopen : (closingPeer "$5\r\nREDIS").openStream slice =
      .ok ((⟨"REDIS", ([], .eof)⟩, 5), 5) := rfl
  exact (snapshotShard_whole_iff hexChecksum slice (gcsStore [] fun _ => 1)
    (fun _ => closingPeer "$5\r\nREDIS") _ ⟨0, [], [], [], 0⟩ hopen).mpr (.inl (by decide))

/-- A primary that announces nine bytes and closes after five: the snapshot
reports success, with a fragment for the five. -/
theorem snapshotShard_accepts_cut_dump :
    let o : BackupOptions Bucket (Buffered (Bytes × End) × Nat) :=
      ⟨"prod", "bk-1", [], [], [], [], none, [], none, []⟩
    let sp : ShardPrimary := ⟨0, [], [], [⟨0, 16383⟩], 0⟩
    let peer := closingPeer "$9\r\nREDIS"
    let snapshot := snapshotShard hexChecksum o (s3Store [] fun _ => 1).toStore
      (syncSource slice fun _ => peer) sp
    (peer.openStream slice).toOption.map (·.2) = some 9 ∧
      (snapshot.outcome ⟨∅, []⟩).toOption = some (fragment hexChecksum sp "REDIS", sp.slots) ∧
      (snapshot.after ⟨∅, []⟩).objects.lookup "prod/bk-1/shard-0/dump.rdb".toList =
        some "REDIS".toList := by
  decide

end Snapshot

/-! ## The whole set -/

inductive CoverageVerdict where
  | complete
  | incomplete
deriving DecidableEq

def CoverageVerdict.toStr : CoverageVerdict → Str
  | .complete => "complete"
  | .incomplete => "partial"

def consistencyBestEffort : Str := "best-effort"

def errIncompleteCoverage : Err := { msg := "incomplete slot coverage" }

def compareRanges (a b : SlotRange) : Int :=
  if a.start - b.start ≠ 0 then a.start - b.start else a.stop - b.stop

/-- Walk the sorted ranges; the next uncovered slot, or nothing at the first gap,
overlap or inverted range. -/
def coverageLoop (next : Int) : List SlotRange → Option Int
  | [] => some next
  | r :: rest =>
    if r.start ≠ next then none
    else if r.stop < r.start then none
    else coverageLoop (r.stop + 1) rest

def assertCoverage (S : Sorter SlotRange) (ranges : List SlotRange) : CoverageVerdict :=
  match S.sort compareRanges ranges with
  | [] => .incomplete
  | first :: rest =>
    if first.start ≠ 0 then .incomplete
    else
      match coverageLoop 0 (first :: rest) with
      | none => .incomplete
      | some next => if next ≠ totalSlots then .incomplete else .complete

def manifestSchemaVersion : Int := 1

def manifestAPIVersion : Str := "valkey.percona.com/v1alpha1"

section Run

variable {W ρ : Type} (sha256 : Bytes → Str) (marshalIndent : Manifest → Except Err Bytes)

def marshalManifest (m : Manifest) : Except Err Bytes :=
  let m := if m.schemaVersion = 0 then { m with schemaVersion := manifestSchemaVersion } else m
  let m := if m.apiVersion = [] then { m with apiVersion := manifestAPIVersion } else m
  match marshalIndent m with
  | .error e => .error (e.wrap "marshal backup manifest")
  | .ok data => .ok data

def writeManifest (store : ArtifactStore W) (key : Str) (m : Manifest) : Action W Unit :=
  match marshalManifest marshalIndent m with
  | .error e => throw e
  | .ok data => do
    let _ ← store.put key slice (data, .eof) data.length
    pure ()

/-- Snapshot the shards in turn, collecting fragments and captured ranges. A
failed shard ends the run, or in best-effort mode is left out. -/
def snapshotAll (o : BackupOptions W ρ) (store : ArtifactStore W) (source : RDBSource ρ) :
    List ShardPrimary → Manifest → List SlotRange → Action W (Manifest × List SlotRange)
  | [], man, captured => pure (man, captured)
  | sp :: rest, man, captured => fun w =>
    match snapshotShard sha256 o store source sp w with
    | .ok (frag, ranges) w' =>
      snapshotAll o store source rest { man with shards := man.shards ++ [frag] }
        (captured ++ ranges) w'
    | .error e w' =>
      if o.consistency ≠ consistencyBestEffort then
        .error (e.wrap ("shard " ++ itoa sp.index)) w'
      else
        snapshotAll o store source rest
          { man with slotCoverage := CoverageVerdict.incomplete.toStr } captured w'

def runBackup (S : Sorter ShardPrimary) (S' : Sorter SlotRange) (o : BackupOptions W ρ) :
    Action W Unit :=
  match o.store, o.newRDBSource with
  | none, _ => throw { msg := "backup: nil store" }
  | _, none => throw { msg := "backup: nil RDB source factory" }
  | some store, some source => do
    let shards := S.sort (fun a b => a.index - b.index) o.shards
    let man : Manifest :=
      { cluster := o.cluster, backupName := o.backupName, mode := o.mode,
        crVersion := o.crVersion, engineVersion := o.engineVersion,
        consistency := o.consistency, createdAt := o.timestamp }
    let (man, captured) ← snapshotAll sha256 o store source shards man []
    let verdict := assertCoverage S' captured
    if verdict = .incomplete ∧ o.consistency ≠ consistencyBestEffort then
      throw errIncompleteCoverage
    Action.mapErr (Err.wrap "write manifest")
      (writeManifest marshalIndent store (manifestKey o.cluster o.backupName)
        { man with slotCoverage := verdict.toStr })

end Run

end ValkeyOperator.Backup

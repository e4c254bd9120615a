import ValkeyOperator.Backup.Snapshot

/-! One backup run as a transaction (`runBackup`).

The store is observed through a journal of its uploads. A run uploads a dump for
each shard whose stream opens, in the order of the shards; if the loop and the
coverage check let it, one upload more seals the set: the manifest. -/

namespace ValkeyOperator.Backup
open Text ValkeyOperator.Stream Valkey

variable {j' : Journal} {attempts : List Attempt} {shards : List ShardPrimary}
  {ranges : List SlotRange}

/-! ## The coverage check -/

/-- No range is inverted, no two have a slot in common, and together they have the
slots 0 to 16383. -/
structure ExactCover (ranges : List SlotRange) : Prop where
  ordered : Ordered ranges
  disjoint : ranges.Pairwise fun r r' => r.stop < r'.start ∨ r'.stop < r.start
  covers : ∀ s, Covers ranges s ↔ 0 ≤ s ∧ s ≤ maxSlot

theorem ExactCover.of_perm {ranges' : List SlotRange} (h : ExactCover ranges)
    (hperm : ranges.Perm ranges') : ExactCover ranges' where
  ordered r hr := h.ordered r (hperm.mem_iff.mpr hr)
  disjoint := (hperm.pairwise_iff Or.symm).mp h.disjoint
  covers s := by
    rw [← h.covers s]
    exact exists_congr fun r => and_congr_left' hperm.mem_iff.symm

theorem compares_compareRanges : Compares compareRanges :=
  (Compares.ofKey SlotRange.start).andThen (Compares.ofKey SlotRange.stop)

theorem start_le_of_compareRanges {r r' : SlotRange} (h : compareRanges r r' ≤ 0) :
    r.start ≤ r'.start := by
  unfold compareRanges at h
  split at h <;> omega

/-- What the walk accepts: ranges that fill the interval it has walked through. -/
structure Fills (next stop : Int) (ranges : List SlotRange) : Prop where
  ordered : Ordered ranges
  disjoint : ranges.Pairwise fun r r' => r.stop < r'.start ∨ r'.stop < r.start
  covers : ∀ s, Covers ranges s ↔ next ≤ s ∧ s < stop
  le : next ≤ stop

theorem Fills.of_coverageLoop {next stop : Int} (h : coverageLoop next ranges = some stop) :
    Fills next stop ranges := by
  induction ranges generalizing next with
  | nil =>
    obtain rfl : next = stop := by simpa [coverageLoop] using h
    exact ⟨by simp [Ordered], .nil, fun s => by simp [Covers], le_rfl⟩
  | cons r rest ih =>
    unfold coverageLoop at h
    split at h
    · cases h
    · rename_i hstart
      split at h
      · cases h
      · rename_i hstop
        have hrest := ih h
        have hle := hrest.le
        refine ⟨?_, List.pairwise_cons.mpr ⟨fun r' hr' => .inl ?_, hrest.disjoint⟩, fun s => ?_,
          by omega⟩
        · intro r' hr'
          rcases List.mem_cons.mp hr' with rfl | hr'
          · omega
          · exact hrest.ordered r' hr'
        · have := (hrest.covers r'.start).mp ⟨r', hr', le_rfl, hrest.ordered r' hr'⟩
          omega
        · rw [covers_cons, hrest.covers]
          omega

/-- Sorted ranges that fill an interval are walked through to its end. -/
theorem Fills.coverageLoop {next stop : Int} (h : Fills next stop ranges)
    (hsorted : ranges.Pairwise fun r r' => r.start ≤ r'.start) :
    Backup.coverageLoop next ranges = some stop := by
  induction ranges generalizing next with
  | nil =>
    have hnext := (h.covers next).not.mp (by simp [Covers])
    have hle := h.le
    have : next = stop := by omega
    simp [Backup.coverageLoop, this]
  | cons r rest ih =>
    obtain ⟨hfirst, hsorted⟩ := List.pairwise_cons.mp hsorted
    obtain ⟨hapart, hdisjoint⟩ := List.pairwise_cons.mp h.disjoint
    have hr : r.start ≤ r.stop := h.ordered r (by simp)
    have hin := (h.covers r.start).mp ⟨r, by simp, le_rfl, hr⟩
    have hlast := (h.covers r.stop).mp ⟨r, by simp, hr, le_rfl⟩
    -- the first slot lies in some range, and none begins before the first one
    have hstart : r.start = next := by
      obtain ⟨r', hr', hbegin, -⟩ := (h.covers next).mpr (by omega)
      rcases List.mem_cons.mp hr' with rfl | hr'
      · omega
      · have := hfirst r' hr'
        omega
    have hafter : ∀ r' ∈ rest, r.stop < r'.start := by
      intro r' hr'
      have := hfirst r' hr'
      have := h.ordered r' (by simp [hr'])
      rcases hapart r' hr' with hlt | hlt <;> omega
    have hrest : Fills (r.stop + 1) stop rest := by
      refine ⟨fun r' hr' => h.ordered r' (by simp [hr']), hdisjoint, fun s => ?_, by omega⟩
      have hall := h.covers s
      rw [covers_cons] at hall
      constructor
      · rintro ⟨r', hr', hbegin, hend⟩
        have := hafter r' hr'
        have := hall.mp (.inr ⟨r', hr', hbegin, hend⟩)
        omega
      · intro hs
        rcases hall.mpr (by omega) with hs' | hs'
        · omega
        · exact hs'
    unfold Backup.coverageLoop
    rw [if_neg (by omega), if_neg (by omega)]
    exact ih hrest hsorted

theorem exactCover_iff_fills : ExactCover ranges ↔ Fills 0 totalSlots ranges := by
  have hbound : ∀ s : Int, s ≤ maxSlot ↔ s < totalSlots := fun s => by
    unfold maxSlot
    omega
  constructor
  · exact fun h => ⟨h.ordered, h.disjoint, fun s => by rw [h.covers, hbound], by decide⟩
  · exact fun h => ⟨h.ordered, h.disjoint, fun s => by rw [h.covers, hbound]⟩

theorem CoverageVerdict.toStr_eq_complete_iff (verdict : CoverageVerdict) :
    verdict.toStr = CoverageVerdict.complete.toStr ↔ verdict = .complete := by
  cases verdict <;> decide

/-- The verdict is `complete` exactly for the ranges that cover every slot once. -/
theorem assertCoverage_eq_complete_iff (S : Sorter SlotRange) (ranges : List SlotRange) :
    assertCoverage S ranges = .complete ↔ ExactCover ranges := by
  have hperm := S.perm compareRanges ranges
  have hsorted := (S.sorted compareRanges compares_compareRanges ranges).imp
    start_le_of_compareRanges
  have hcover : ExactCover ranges ↔
      coverageLoop 0 (S.sort compareRanges ranges) = some totalSlots := by
    constructor
    · exact fun h => (exactCover_iff_fills.mp (h.of_perm hperm.symm)).coverageLoop hsorted
    · exact fun h => (exactCover_iff_fills.mpr (.of_coverageLoop h)).of_perm hperm
  rw [hcover]
  unfold assertCoverage
  cases S.sort compareRanges ranges with
  | nil => simp [coverageLoop, totalSlots]
  | cons first rest =>
    by_cases hfirst : first.start = 0
    · simp only [hfirst, ne_eq, not_true_eq_false, if_false]
      cases coverageLoop 0 (first :: rest) with
      | none => simp
      | some next => by_cases hnext : next = totalSlots <;> simp [hnext]
    · simp [coverageLoop, hfirst]

/-! ## The journal of a store -/

/-- An upload: what its stream yielded, whether the store acknowledged it, and the
objects of the bucket right after it. -/
structure PutCall where
  key : Str
  bytes : Bytes
  acked : Bool
  objects : Objects

/-- A bucket and the uploads to it so far. -/
structure Journal where
  bucket : Bucket
  calls : List PutCall := []

/-- A backend that keeps a journal. -/
def Backend.journaled (b : Backend) : ArtifactStore Journal where
  put key R s n := fun j =>
    match b.put key R s n j.bucket with
    | .ok s' w => .ok s' ⟨w, j.calls ++ [⟨key, R.content s, true, w.objects⟩]⟩
    | .error e w => .error e ⟨w, j.calls ++ [⟨key, R.content s, false, w.objects⟩]⟩
  list pfx := fun j =>
    match b.list pfx j.bucket with
    | .ok keys w => .ok keys { j with bucket := w }
    | .error e w => .error e { j with bucket := w }
  delete key := fun j =>
    match b.delete key j.bucket with
    | .ok _ w => .ok () { j with bucket := w }
    | .error e w => .error e { j with bucket := w }

/-- An upload stores its bytes under its key; one that is not acknowledged may also
have stored nothing. -/
def PutCall.Stores (b : Backend) (before : Objects) (call : PutCall) : Prop :=
  call.objects = before.insert (b.fullKey call.key) call.bytes ∨
    call.acked = false ∧ call.objects = before

/-- What one upload does to the journal. -/
structure Journal.Extends (b : Backend) (j : Journal) (call : PutCall) (j' : Journal) : Prop where
  stores : call.Stores b j.bucket.objects
  objects : j'.bucket.objects = call.objects
  calls : j'.calls = j.calls ++ [call]

section Put

variable {σ : Type} (b : Backend) (key : Str) (R : Reader σ) (s : σ) (n : Int) (j : Journal)

/-- An upload reads its stream to the end; it is acknowledged only if that was a
clean one. -/
theorem journaled_put :
    ∃ call j', j.Extends b call j' ∧ call.key = key ∧ call.bytes = R.content s ∧
      ((∃ s', call.acked = true ∧ b.journaled.put key R s n j = .ok s' j' ∧
          drain R b.readSize s = some ((R.content s, .eof), s')) ∨
        ∃ e, call.acked = false ∧ b.journaled.put key R s n j = .error e j') := by
  cases hput : b.put key R s n j.bucket with
  | ok s' w =>
    obtain ⟨hdrain, hw⟩ := b.put_returns hput
    refine ⟨⟨key, R.content s, true, w.objects⟩, ⟨w, j.calls ++ [_]⟩, ⟨.inl ?_, rfl, rfl⟩, rfl, rfl,
      .inl ⟨s', rfl, by simp [Backend.journaled, hput], hdrain⟩⟩
    simp [hw, Bucket.store, Bucket.called]
  | error e w =>
    refine ⟨⟨key, R.content s, false, w.objects⟩, ⟨w, j.calls ++ [_]⟩, ⟨?_, rfl, rfl⟩, rfl, rfl,
      .inr ⟨e, rfl, by simp [Backend.journaled, hput]⟩⟩
    rcases b.put_fails hput with hstored | hkept
    · exact .inl hstored
    · exact .inr ⟨rfl, hkept⟩

end Put

/-! ## One shard -/

section Shard

variable {ρ : Type} (sha256 : Bytes → Str) (b : Backend) (o : BackupOptions Journal ρ)
  (source : RDBSource ρ)

/-- The upload made for a shard: the whole stream of its primary, under its key. -/
structure Attempts (sp : ShardPrimary) (call : PutCall) : Prop where
  key : call.key = shardRDBKey o.cluster o.backupName sp.index
  stream : ∃ stream length, source.openStream sp = .ok (stream, length) ∧
    call.bytes = source.reader.content stream ∧
    (call.acked = true → source.reader.ending stream = .eof)

/-- A shard whose stream does not open fails without an upload; the others fail
exactly when their upload is not acknowledged. -/
theorem snapshotShard_journal (sp : ShardPrimary) (j : Journal) :
    (∃ e, snapshotShard sha256 o b.journaled source sp j = .error e j) ∨
    ∃ call j', Attempts o source sp call ∧ j.Extends b call j' ∧
      ((call.acked = true ∧ snapshotShard sha256 o b.journaled source sp j =
          .ok (fragment sha256 sp call.bytes, sp.slots) j') ∨
        ∃ e, call.acked = false ∧
          snapshotShard sha256 o b.journaled source sp j = .error e j') := by
  cases hopen : source.openStream sp with
  | error e =>
    refine .inl ⟨e.wrap "open RDB source", ?_⟩
    unfold snapshotShard
    rw [hopen]
    rfl
  | ok opened =>
    obtain ⟨stream, length⟩ := opened
    obtain ⟨call, j', hext, hkey, hbytes, hput⟩ := journaled_put b
      (shardRDBKey o.cluster o.backupName sp.index) (tee (tee source.reader hasher) counter)
      ((stream, []), 0) length j
    have hcontent : call.bytes = source.reader.content stream := hbytes
    refine .inr ⟨call, j', ?_, hext, ?_⟩
    · refine ⟨hkey, stream, length, hopen, hcontent, fun hacked => ?_⟩
      rcases hput with ⟨s', -, -, hdrain⟩ | ⟨e, hfailed, -⟩
      · obtain ⟨t, ht⟩ := drain_spec source.reader b.readSize stream
        rw [drain_tee, drain_tee, ht] at hdrain
        simp only [Option.map_some, Option.some.injEq, Prod.mk.injEq] at hdrain
        exact hdrain.1.2
      · rw [hfailed] at hacked
        cases hacked
    · unfold snapshotShard
      rw [hopen]
      rcases hput with ⟨s', hacked, hrun, hdrain⟩ | ⟨e, hfailed, hrun⟩
      · refine .inl ⟨hacked, ?_⟩
        obtain ⟨t, ht⟩ := drain_spec source.reader b.readSize stream
        rw [drain_tee, drain_tee, ht] at hdrain
        simp only [Option.map_some, Option.some.injEq, Prod.mk.injEq] at hdrain
        have hput : Action.Returns (b.journaled.put (shardRDBKey o.cluster o.backupName sp.index)
            (tee (tee source.reader hasher) counter) ((stream, []), 0) length) j s' j' := hrun
        refine ((hput.under_mapErr _).then_pure _).trans ?_
        rw [← hdrain.2]
        simp [fragment, hasher, counter, hcontent]
      · exact .inr ⟨_, hfailed, Action.bind_error (Action.mapErr_error hrun _) _⟩

/-! ## The loop over the shards -/

/-- The objects after a list of uploads. -/
def objectsAfter (before : Objects) : List PutCall → Objects
  | [] => before
  | call :: rest => objectsAfter call.objects rest

/-- Each upload starts from what the one before it left. -/
def Chained (before : Objects) : List PutCall → Prop
  | [] => True
  | call :: rest => call.Stores b before ∧ Chained call.objects rest

abbrev Attempt := ShardPrimary × PutCall

/-- The attempts whose upload was acknowledged. -/
def taken (attempts : List Attempt) : List Attempt := attempts.filter (·.2.acked)

def recorded (attempts : List Attempt) : List ShardManifest :=
  (taken attempts).map fun a => fragment sha256 a.1 a.2.bytes

def capturedRanges (attempts : List Attempt) : List SlotRange :=
  (taken attempts).flatMap (·.1.slots)

/-- The uploads of a loop over `shards`. -/
structure Uploaded (shards : List ShardPrimary) (j : Journal) (attempts : List Attempt)
    (j' : Journal) : Prop where
  within : (attempts.map Prod.fst).Sublist shards
  attempted : ∀ a ∈ attempts, Attempts o source a.1 a.2
  chained : Chained b j.bucket.objects (attempts.map Prod.snd)
  objects : j'.bucket.objects = objectsAfter j.bucket.objects (attempts.map Prod.snd)
  calls : j'.calls = j.calls ++ attempts.map Prod.snd

variable {b o source}

theorem Uploaded.none (shards : List ShardPrimary) (j : Journal) :
    Uploaded b o source shards j [] j :=
  ⟨List.nil_sublist _, by simp, trivial, rfl, by simp⟩

theorem Uploaded.skip {j : Journal} (h : Uploaded b o source shards j attempts j')
    (sp : ShardPrimary) : Uploaded b o source (sp :: shards) j attempts j' :=
  { h with within := h.within.cons sp }

theorem Uploaded.cons {sp : ShardPrimary} {call : PutCall} {j v : Journal}
    (hcall : Attempts o source sp call) (hext : j.Extends b call v)
    (h : Uploaded b o source shards v attempts j') :
    Uploaded b o source (sp :: shards) j ((sp, call) :: attempts) j' where
  within := h.within.cons_cons sp
  attempted a ha := by
    rcases List.mem_cons.mp ha with rfl | ha
    · exact hcall
    · exact h.attempted a ha
  chained := ⟨hext.stores, hext.objects ▸ h.chained⟩
  objects := by rw [h.objects, hext.objects]; rfl
  calls := by simp [h.calls, hext.calls]

/-- Of shards with different indexes no two attempts have the same. -/
theorem Uploaded.ranked {S : Sorter ShardPrimary} {cmp : ShardPrimary → ShardPrimary → Int}
    {j : Journal} (h : Uploaded b o source (S.sort cmp shards) j attempts j')
    (hranked : (shards.map ShardPrimary.index).Nodup) : (attempts.map (·.1.index)).Nodup := by
  have hsorted := ((S.perm cmp shards).map ShardPrimary.index).nodup_iff.mpr hranked
  have hsub := (h.within.map ShardPrimary.index).nodup hsorted
  rwa [List.map_map] at hsub

variable (b o source)

/-- The loop returns with the fragments and ranges of the attempts it took, every
shard among them outside best-effort mode; else it fails at some shard. -/
theorem snapshotAll_journal (shards : List ShardPrimary) (man : Manifest)
    (captured : List SlotRange) (j : Journal) :
    ∃ attempts j', Uploaded b o source shards j attempts j' ∧
      ((∃ coverage, snapshotAll sha256 o b.journaled source shards man captured j =
          .ok ({ man with shards := man.shards ++ recorded sha256 attempts
                          slotCoverage := coverage },
            captured ++ capturedRanges attempts) j' ∧
          (o.consistency ≠ consistencyBestEffort →
            attempts.map Prod.fst = shards ∧ taken attempts = attempts)) ∨
        ∃ e, ∃ sp : ShardPrimary, snapshotAll sha256 o b.journaled source shards man captured j =
          .error (Err.wrap ("shard " ++ itoa sp.index) e) j') := by
  induction shards generalizing man captured j with
  | nil =>
    refine ⟨[], j, .none _ j, .inl ⟨man.slotCoverage, ?_, by simp [taken]⟩⟩
    simp [snapshotAll, recorded, capturedRanges, taken, EStateM.pure, pure]
  | cons sp rest ih =>
    unfold snapshotAll
    rcases snapshotShard_journal sha256 b o source sp j with
      ⟨e, hrun⟩ | ⟨call, v, hcall, hext, ⟨hacked, hrun⟩ | ⟨e, hfailed, hrun⟩⟩
    · by_cases hmode : o.consistency ≠ consistencyBestEffort
      · refine ⟨[], j, Uploaded.none _ j, .inr ⟨e, sp, ?_⟩⟩
        simp only [hrun, if_pos hmode]
      · obtain ⟨attempts, j', hup, hends⟩ := ih
          { man with slotCoverage := CoverageVerdict.incomplete.toStr } captured j
        refine ⟨attempts, j', hup.skip sp, ?_⟩
        simp only [hrun, if_neg hmode]
        rcases hends with ⟨coverage, hloop, -⟩ | hends
        · exact .inl ⟨coverage, hloop, fun h => absurd h hmode⟩
        · exact .inr hends
    · obtain ⟨attempts, j', hup, hends⟩ := ih
        { man with shards := man.shards ++ [fragment sha256 sp call.bytes] }
        (captured ++ sp.slots) v
      refine ⟨(sp, call) :: attempts, j', hup.cons hcall hext, ?_⟩
      have htaken : taken ((sp, call) :: attempts) = (sp, call) :: taken attempts := by
        simp [taken, hacked]
      simp only [hrun, recorded, capturedRanges, htaken, List.map_cons, List.flatMap_cons]
      rcases hends with ⟨coverage, hloop, hall⟩ | hends
      · refine .inl ⟨coverage, ?_, fun hmode => ?_⟩
        · simpa [recorded, capturedRanges] using hloop
        · obtain ⟨hshards, hacked⟩ := hall hmode
          exact ⟨by rw [hshards], by rw [hacked]⟩
      · exact .inr hends
    · by_cases hmode : o.consistency ≠ consistencyBestEffort
      · refine ⟨[(sp, call)], v, (Uploaded.none _ _).cons hcall hext, .inr ⟨e, sp, ?_⟩⟩
        simp only [hrun, if_pos hmode]
      · obtain ⟨attempts, j', hup, hends⟩ := ih
          { man with slotCoverage := CoverageVerdict.incomplete.toStr } captured v
        refine ⟨(sp, call) :: attempts, j', hup.cons hcall hext, ?_⟩
        have htaken : taken ((sp, call) :: attempts) = taken attempts := by simp [taken, hfailed]
        simp only [hrun, if_neg hmode, recorded, capturedRanges, htaken]
        rcases hends with ⟨coverage, hloop, -⟩ | hends
        · exact .inl ⟨coverage, hloop, fun h => absurd h hmode⟩
        · exact .inr hends

/-! ## The whole run -/

/-- What the manifest of a run says about its attempts. -/
structure Describes (shards : List ShardPrimary) (attempts : List Attempt) (man : Manifest) :
    Prop where
  listed : man.shards = recorded sha256 attempts
  coverage : man.slotCoverage = CoverageVerdict.complete.toStr ↔
    ExactCover (capturedRanges attempts)
  strict : o.consistency ≠ consistencyBestEffort →
    attempts.map Prod.fst = shards ∧ taken attempts = attempts ∧
      ExactCover (capturedRanges attempts)

variable (marshalIndent : Manifest → Except Err Bytes)

/-- The upload of the manifest. -/
structure Seals (man : Manifest) (call : PutCall) : Prop where
  key : call.key = manifestKey o.cluster o.backupName
  bytes : marshalManifest marshalIndent man = .ok call.bytes

theorem writeManifest_journal (man : Manifest) (j : Journal) :
    (∃ e, writeManifest marshalIndent b.journaled (manifestKey o.cluster o.backupName) man j =
        .error e j) ∨
    ∃ call j', Seals o marshalIndent man call ∧ j.Extends b call j' ∧
      ((call.acked = true ∧ writeManifest marshalIndent b.journaled
          (manifestKey o.cluster o.backupName) man j = .ok () j') ∨
        ∃ e, call.acked = false ∧ writeManifest marshalIndent b.journaled
          (manifestKey o.cluster o.backupName) man j = .error e j') := by
  unfold writeManifest
  cases hdata : marshalManifest marshalIndent man with
  | error e => exact .inl ⟨e, rfl⟩
  | ok data =>
    obtain ⟨call, j', hext, hkey, hbytes, hput⟩ := journaled_put b
      (manifestKey o.cluster o.backupName) slice (data, .eof) data.length j
    have hsealed : marshalManifest marshalIndent man = .ok call.bytes := by
      rw [hdata, hbytes]
      rfl
    refine .inr ⟨call, j', ⟨hkey, hsealed⟩, hext, ?_⟩
    rcases hput with ⟨s', hacked, hrun, -⟩ | ⟨e, hfailed, hrun⟩
    · exact .inl ⟨hacked, Action.Returns.then_pure hrun _⟩
    · exact .inr ⟨e, hfailed, Action.bind_error hrun _⟩

/-- A run ends before its manifest, or with the upload of a manifest that describes
the attempts made before it. -/
theorem runBackup_journal (S : Sorter ShardPrimary) (S' : Sorter SlotRange)
    (hstore : o.store = some b.journaled) (hsource : o.newRDBSource = some source) (j : Journal) :
    let shards := S.sort (fun a b => a.index - b.index) o.shards
    let run := runBackup sha256 marshalIndent S S' o
    ∃ attempts v, Uploaded b o source shards j attempts v ∧
      ((∃ e, run j = .error e v) ∨
        ∃ man last j', Describes sha256 o shards attempts man ∧ man.schemaVersion = 0 ∧
          Seals o marshalIndent man last ∧ v.Extends b last j' ∧
          ((last.acked = true ∧ run j = .ok () j') ∨
            ∃ e, last.acked = false ∧ run j = .error (Err.wrap "write manifest" e) j')) := by
  intro shards run
  let man : Manifest :=
    { cluster := o.cluster, backupName := o.backupName, mode := o.mode, crVersion := o.crVersion,
      engineVersion := o.engineVersion, consistency := o.consistency, createdAt := o.timestamp }
  obtain ⟨attempts, v, hup, hends⟩ := snapshotAll_journal sha256 b o source shards man [] j
  refine ⟨attempts, v, hup, ?_⟩
  simp only [run, runBackup, hstore, hsource]
  rcases hends with ⟨coverage, hloop, hall⟩ | ⟨e, sp, hloop⟩
  · rw [Action.bind_ok hloop]
    simp only [man, List.nil_append]
    by_cases hgiveup : assertCoverage S' (capturedRanges attempts) = .incomplete ∧
        o.consistency ≠ consistencyBestEffort
    · rw [if_pos hgiveup]
      exact .inl ⟨errIncompleteCoverage, rfl⟩
    · rw [if_neg hgiveup]
      let final : Manifest :=
        { man with shards := recorded sha256 attempts
                   slotCoverage := (assertCoverage S' (capturedRanges attempts)).toStr }
      have hcomplete := assertCoverage_eq_complete_iff S' (capturedRanges attempts)
      have hdescribes : Describes sha256 o shards attempts final := by
        refine ⟨rfl, ?_, fun hmode => ?_⟩
        · exact (CoverageVerdict.toStr_eq_complete_iff _).trans hcomplete
        · obtain ⟨hshards, htaken⟩ := hall hmode
          refine ⟨hshards, htaken, hcomplete.mp ?_⟩
          cases hverdict : assertCoverage S' (capturedRanges attempts) with
          | complete => rfl
          | incomplete => exact absurd ⟨hverdict, hmode⟩ hgiveup
      rcases writeManifest_journal b o marshalIndent final v with
        ⟨e, hwrite⟩ | ⟨last, j', hseals, hext, ⟨hacked, hwrite⟩ | ⟨e, hfailed, hwrite⟩⟩
      · exact .inl ⟨_, Action.mapErr_error hwrite _⟩
      · exact .inr ⟨final, last, j', hdescribes, rfl, hseals, hext,
          .inl ⟨hacked, Action.Returns.under_mapErr hwrite _⟩⟩
      · exact .inr ⟨final, last, j', hdescribes, rfl, hseals, hext,
          .inr ⟨e, hfailed, Action.mapErr_error hwrite _⟩⟩
  · exact .inl ⟨_, Action.bind_error hloop _⟩

/-- A run that is over: the uploads of its attempts and after them that of the
manifest, acknowledged. -/
structure Sealed (shards : List ShardPrimary) (calls : List PutCall) (attempts : List Attempt)
    (man : Manifest) (last : PutCall) : Prop where
  calls : calls = attempts.map Prod.snd ++ [last]
  manifest : Seals o marshalIndent man last
  acked : last.acked = true
  within : (attempts.map Prod.fst).Sublist shards
  attempted : ∀ a ∈ attempts, Attempts o source a.1 a.2
  describes : Describes sha256 o shards attempts man

theorem Uploaded.no_manifest {w : Bucket} (h : Uploaded b o source shards ⟨w, []⟩ attempts j') :
    ∀ call ∈ j'.calls, call.key ≠ manifestKey o.cluster o.backupName := by
  intro call hcall
  rw [h.calls, List.nil_append] at hcall
  obtain ⟨a, ha, rfl⟩ := List.mem_map.mp hcall
  rw [(h.attempted a ha).key]
  exact shardRDBKey_ne_manifestKey _ _ _

/-- A run is a transaction sealed by its manifest, whichever snapshots and store calls
fail: an error from anywhere else than the writing of the manifest comes without an
upload of one, and success with one that is the last upload and describes those
before it. -/
theorem runBackup_transaction (S : Sorter ShardPrimary) (S' : Sorter SlotRange)
    (hstore : ∀ store ∈ o.store, store = b.journaled) (w : Bucket) :
    let shards := S.sort (fun a b => a.index - b.index) o.shards
    let run := runBackup sha256 marshalIndent S S' o
    let calls := (run.after ⟨w, []⟩).calls
    (∀ e, run.outcome ⟨w, []⟩ = .error e → (∀ cause, e ≠ Err.wrap "write manifest" cause) →
        ∀ call ∈ calls, call.key ≠ manifestKey o.cluster o.backupName) ∧
      (run.outcome ⟨w, []⟩ = .ok () → ∃ source ∈ o.newRDBSource, ∃ attempts man last,
        Sealed sha256 o source marshalIndent shards calls attempts man last) := by
  intro shards run calls
  cases hs : o.store with
  | none =>
    have hrun : run ⟨w, []⟩ = .error { msg := "backup: nil store" } ⟨w, []⟩ := by
      simp only [run, runBackup, hs]
      rfl
    simp [calls, Action.outcome, Action.after, hrun]
  | some store =>
    obtain rfl := hstore store hs
    cases hsrc : o.newRDBSource with
    | none =>
      have hrun : run ⟨w, []⟩ = .error { msg := "backup: nil RDB source factory" } ⟨w, []⟩ := by
        simp only [run, runBackup, hs, hsrc]
        rfl
      simp [calls, Action.outcome, Action.after, hrun]
    | some source =>
      obtain ⟨attempts, v, hup, ⟨e, hrun⟩ | ⟨man, last, j', hman, -, hseals, hext,
        ⟨hacked, hrun⟩ | ⟨e, -, hrun⟩⟩⟩ :=
        runBackup_journal sha256 b o source marshalIndent S S' hs hsrc ⟨w, []⟩
      · simp only [calls, run, Action.outcome, Action.after, hrun]
        refine ⟨fun _ _ _ => hup.no_manifest, fun hok => ?_⟩
        cases hok
      · simp only [calls, run, Action.outcome, Action.after, hrun]
        refine ⟨fun _ herr => ?_, fun _ => ⟨source, rfl, attempts, man, last, ?_, hseals, hacked,
          hup.within, hup.attempted, hman⟩⟩
        · cases herr
        · simp [hext.calls, hup.calls]
      · simp only [calls, run, Action.outcome, Action.after, hrun]
        refine ⟨fun e' herr hother => ?_, fun hok => ?_⟩
        · exact absurd (Except.error.inj herr).symm (hother e)
        · cases hok

end Shard

/-! ## A format for manifests -/

/-- A text in quotes, with quotes and backslashes escaped. -/
def quoted (t : Str) : Str :=
  '"' :: t.flatMap (fun c => if c = '"' ∨ c = '\\' then ['\\', c] else [c]) ++ ['"', '\n']

/-- The texts in quotes; `opened` is the one that has been opened. -/
def unquoted : (opened : Option Str) → Str → List Str
  | none, '"' :: rest => unquoted (some []) rest
  | some t, '\\' :: c :: rest => unquoted (some (t ++ [c])) rest
  | some t, '"' :: rest => t :: unquoted none rest
  | some t, c :: rest => unquoted (some (t ++ [c])) rest
  | none, _ :: rest => unquoted none rest
  | _, [] => []

theorem unquoted_quoted (t rest : Str) :
    unquoted none (quoted t ++ rest) = t :: unquoted none rest := by
  suffices ∀ read : Str, unquoted (some read) (t.flatMap (fun c =>
      if c = '"' ∨ c = '\\' then ['\\', c] else [c]) ++ '"' :: '\n' :: rest) =
        (read ++ t) :: unquoted none rest by
    simpa [quoted, unquoted] using this []
  induction t with
  | nil => simp [unquoted]
  | cons c t ih =>
    intro read
    rw [List.flatMap_cons]
    split
    · simp [unquoted, ih]
    · rename_i hplain
      rw [not_or] at hplain
      rw [List.cons_append, List.nil_append, List.cons_append, unquoted, ih]
      · simp
      · simp [hplain.2]
      · simp [hplain.1]

def ShardManifest.texts (s : ShardManifest) : List Str :=
  [itoa s.index, s.primaryNodeID, s.slotRanges, s.rdbKey, itoa s.sizeBytes, s.sha256,
    itoa s.masterReplOffset]

def Manifest.texts (m : Manifest) : List Str :=
  [itoa m.schemaVersion, m.apiVersion, m.cluster, m.backupName, m.mode, m.crVersion,
    m.engineVersion, m.createdAt, m.consistency, m.slotCoverage] ++
    m.shards.flatMap ShardManifest.texts

def shardsOfTexts : List Str → Option (List ShardManifest)
  | [] => some []
  | index :: id :: ranges :: key :: size :: sha256 :: offset :: rest => do
    return ⟨← signed? index, id, ranges, key, ← signed? size, sha256, ← signed? offset⟩ ::
      (← shardsOfTexts rest)
  | _ => none

def manifestOfTexts : List Str → Option Manifest
  | version :: api :: cluster :: backup :: mode :: cr :: engine :: created :: consistency ::
      coverage :: rest => do
    return ⟨← signed? version, api, cluster, backup, mode, cr, engine, created, consistency,
      coverage, ← shardsOfTexts rest⟩
  | _ => none

theorem shardsOfTexts_texts (shards : List ShardManifest) :
    shardsOfTexts (shards.flatMap ShardManifest.texts) = some shards := by
  induction shards with
  | nil => rfl
  | cons s shards ih => simp [ShardManifest.texts, shardsOfTexts, signed?_itoa, ih]

theorem manifestOfTexts_texts (m : Manifest) : manifestOfTexts m.texts = some m := by
  simp [Manifest.texts, manifestOfTexts, signed?_itoa, shardsOfTexts_texts]

/-- The fields of a manifest, one after the other. -/
@[irreducible] def manifestText (m : Manifest) : Bytes := m.texts.flatMap quoted

def manifestOfText (data : Bytes) : Option Manifest := manifestOfTexts (unquoted none data)

theorem manifestOfText_text (m : Manifest) : manifestOfText (manifestText m) = some m := by
  have hread : ∀ texts : List Str, unquoted none (texts.flatMap quoted) = texts := by
    intro texts
    induction texts with
    | nil => rfl
    | cons t texts ih => rw [List.flatMap_cons, unquoted_quoted, ih]
  unfold manifestOfText manifestText
  rw [hread, manifestOfTexts_texts]

/-! ## A run with a refused upload -/

/-- A source that yields the same dump for every shard. -/
def constantSource (dump : Bytes) : RDBSource (Bytes × End) :=
  ⟨slice, fun _ => .ok ((dump, .eof), dump.length)⟩

/-- A best-effort backup of two primaries with half of the slots each. -/
def twoShardBackup (b : Backend) : BackupOptions Journal (Bytes × End) where
  cluster := "prod"
  backupName := "bk-1"
  mode := "cluster"
  crVersion := []
  engineVersion := []
  consistency := consistencyBestEffort
  store := some b.journaled
  shards := [⟨0, "n0", "10.0.0.7:6379", [⟨0, 8191⟩], 0⟩,
    ⟨1, "n1", "10.0.0.9:6379", [⟨8192, 16383⟩], 0⟩]
  newRDBSource := some (constantSource "REDIS")
  timestamp := []

/-- A run whose first upload is refused still writes its manifest, which records the
other shard. -/
theorem runBackup_transaction_refusedDump :
    let b := s3Store [] fun _ => 1
    let o := twoShardBackup b
    let marshalIndent := fun m => .ok (manifestText m)
    let run := runBackup hexChecksum marshalIndent .insertion .insertion o
    let j : Journal := ⟨⟨∅, [.refused "quota"]⟩, []⟩
    (run.outcome j).toOption = some () ∧
      (run.after j).calls.map (fun call => (call.key, call.acked)) =
        [("prod/bk-1/shard-0/dump.rdb".toList, false), ("prod/bk-1/shard-1/dump.rdb".toList, true),
          ("prod/bk-1/manifest.json", true)] ∧
      ((run.after j).calls.filterMap fun call => manifestOfText call.bytes).map
        (fun man => man.shards.map ShardManifest.index) = [[1]] ∧
      ∃ attempts man last, Sealed hexChecksum o (constantSource "REDIS") marshalIndent
        o.shards (run.after j).calls attempts man last := by
  intro b o marshalIndent run j
  have hdone : (run.outcome j).toOption = some () := by decide +kernel
  have hok : run.outcome j = .ok () := by
    cases hrun : run.outcome j with
    | error e =>
      rw [hrun] at hdone
      cases hdone
    | ok u => rfl
  obtain ⟨source, hsource, hsealed⟩ := (runBackup_transaction hexChecksum b o marshalIndent
    .insertion .insertion (fun store hstore => (Option.some.inj hstore).symm) j.bucket).2 hok
  obtain rfl := Option.some.inj hsource
  exact ⟨hdone, by decide +kernel, by decide +kernel, hsealed⟩

end ValkeyOperator.Backup

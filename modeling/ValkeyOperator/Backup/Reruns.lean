import ValkeyOperator.Lib.Runs
import ValkeyOperator.Backup.Sealing

/-! Repeated runs for one backup-set.

A Job that vanishes is created again under its name (`watchJob`), so a set may be
written by several runs, each of which may stop after any of its uploads. Every run
stores its dumps under the same keys, over those of the run before it. -/

namespace ValkeyOperator.Backup
open Text ValkeyOperator.Stream Valkey

variable {data : Bytes} {attempts : List Attempt} {calls : List PutCall} {man : Manifest}
  {before objects : Objects}

/-! ## Reading a manifest -/

def Backend.get (b : Backend) (key : Str) : Action Bucket Bytes := fun w =>
  match w.reply with
  | .ok =>
    match w.objects.lookup (b.fullKey key) with
    | some bs => .ok bs w.called
    | none =>
      .error { b.failure "get" key "backup: object does not exist" with
        notExist := true } w.called
  | .refused m | .lost m => .error (b.failure "get" key m) w.called

/-- How manifests are encoded; what was encoded decodes to itself. -/
structure Codec where
  marshalIndent : Manifest → Except Err Bytes
  unmarshal : Bytes → Except Err Manifest
  round_trip : ∀ {m data}, marshalIndent m = .ok data → unmarshal data = .ok m

def unmarshalManifest (codec : Codec) (data : Bytes) : Except Err Manifest :=
  match codec.unmarshal data with
  | .error e => .error (e.wrap "unmarshal backup manifest")
  | .ok m =>
    if m.schemaVersion > manifestSchemaVersion then
      .error { msg := "unsupported manifest schemaVersion " ++ itoa m.schemaVersion ++
        " (this build understands up to " ++ itoa manifestSchemaVersion ++ ")" }
    else .ok m

def readManifest (codec : Codec) (b : Backend) (key : Str) : Action Bucket Manifest := do
  let data ← b.get key
  match unmarshalManifest codec data with
  | .error e => throw e
  | .ok m => pure m

section Readable

variable (codec : Codec) (b : Backend) (cluster backup : Str)

/-- A reader that is not let down by the store gets the manifest. -/
def Readable (objects : Objects) (man : Manifest) : Prop :=
  (readManifest codec b (manifestKey cluster backup)).outcome ⟨objects, []⟩ = .ok man

variable {codec b cluster backup}

theorem Readable.unique {man' : Manifest} (h : Readable codec b cluster backup objects man)
    (h' : Readable codec b cluster backup objects man') : man = man' :=
  Except.ok.inj (h.symm.trans h')

theorem readable_iff :
    Readable codec b cluster backup objects man ↔
      ∃ data, objects.lookup (b.fullKey (manifestKey cluster backup)) = some data ∧
        unmarshalManifest codec data = .ok man := by
  unfold Readable
  cases hdata : objects.lookup (b.fullKey (manifestKey cluster backup)) with
  | none =>
    have hget : ∃ e, b.get (manifestKey cluster backup) ⟨objects, []⟩ = .error e ⟨objects, []⟩ :=
      ⟨_, by simp [Backend.get, Bucket.reply, Bucket.called, hdata]; rfl⟩
    obtain ⟨e, hget⟩ := hget
    simp [readManifest, Action.outcome, Action.bind_error hget]
  | some data =>
    have hget : b.get (manifestKey cluster backup) ⟨objects, []⟩ = .ok data ⟨objects, []⟩ := by
      simp [Backend.get, Bucket.reply, Bucket.called, hdata]
    simp only [readManifest, Action.outcome, Action.bind_ok hget, Option.some.injEq,
      exists_eq_left']
    cases unmarshalManifest codec data with
    | error e =>
      constructor <;> intro h <;> cases h
    | ok m => simp [pure, EStateM.pure]

theorem marshalManifest_ok {marshalIndent : Manifest → Except Err Bytes}
    (h : marshalManifest marshalIndent man = .ok data) :
    ∃ stamped : Manifest, stamped.shards = man.shards ∧
      (man.schemaVersion = 0 → stamped.schemaVersion = manifestSchemaVersion) ∧
      marshalIndent stamped = .ok data := by
  unfold marshalManifest at h
  dsimp only at h
  split at h
  · cases h
  · rename_i data' hmarshal
    obtain rfl : data' = data := Except.ok.inj h
    refine ⟨_, ?_, fun hversion => ?_, hmarshal⟩
    · split <;> split <;> rfl
    · rw [if_pos hversion]
      split <;> rfl

theorem unmarshalManifest_ok (h : unmarshalManifest codec data = .ok man) :
    codec.unmarshal data = .ok man := by
  unfold unmarshalManifest at h
  split at h
  · cases h
  · rename_i m hm
    split at h
    · cases h
    · rw [hm, Except.ok.inj h]

theorem shards_of_marshalManifest {man' : Manifest}
    (hdata : marshalManifest codec.marshalIndent man = .ok data)
    (hread : unmarshalManifest codec data = .ok man') : man'.shards = man.shards := by
  obtain ⟨stamped, hshards, -, hmarshal⟩ := marshalManifest_ok hdata
  have hsame := (codec.round_trip hmarshal).symm.trans (unmarshalManifest_ok hread)
  rw [← hshards, Except.ok.inj hsame]

end Readable

/-! ## The names of a set's objects -/

/-- A backend keeps the objects of a set apart. -/
structure KeepsApart (b : Backend) (cluster backup : Str) : Prop where
  manifest : ∀ i, b.fullKey (shardRDBKey cluster backup i) ≠ b.fullKey (manifestKey cluster backup)
  dumps : ∀ {i i'}, b.fullKey (shardRDBKey cluster backup i) =
    b.fullKey (shardRDBKey cluster backup i') → i = i'

theorem shardRDBKey_injective (c n : ObjectName) {i i' : Int}
    (h : shardRDBKey c.val n.val i = shardRDBKey c.val n.val i') : i = i' := by
  rw [shardRDBKey_eq, shardRDBKey_eq, List.append_cancel_left_eq, List.cons.injEq] at h
  have hname : shardName i = shardName i' := List.append_cancel_right h.2
  have hdigits : "shard-" ++ itoa i = "shard-" ++ itoa i' := hname
  exact itoa_injective (List.append_cancel_left hdigits)

/-- The backends there are: an object store with its key prefix, or a directory. -/
inductive BackendKind where
  | cloud (kind : CloudKind) (root : Str)
  | filesystem
deriving DecidableEq

def BackendKind.open (readSize : Nat → Nat) : BackendKind → Backend
  | .cloud kind root => cloudStore kind root readSize
  | .filesystem => fsStore readSize

/-- Every backend names a key of proper components by putting something before it. -/
theorem BackendKind.fullKey_proper (kind : BackendKind) (readSize : Nat → Nat) :
    ∃ dir, ∀ comps : List Str, comps ≠ [] → (∀ comp ∈ comps, Path.Proper comp) →
      (kind.open readSize).fullKey (join ['/'] comps) = dir ++ join ['/'] comps := by
  cases kind with
  | cloud kind root =>
    refine ⟨rootDir root, fun comps hne hproper => ?_⟩
    obtain ⟨comp, rest, rfl⟩ := List.exists_cons_of_ne_nil hne
    obtain ⟨a, t, ha⟩ := List.exists_cons_of_ne_nil (hproper comp (by simp)).nonempty
    have hslash : a ≠ '/' := fun h => (hproper comp (by simp)).no_slash (by simp [ha, h])
    have hhead : ∃ a t, join ['/'] (comp :: rest) = a :: t ∧ a ≠ '/' :=
      ⟨a, t ++ rest.flatMap fun d => '/' :: d, by simp [Path.join_cons, ha], hslash⟩
    have hlast : (join ['/'] (comp :: rest)).getLast? ≠ some '/' := by
      obtain ⟨init, last, hsplit⟩ := (List.eq_nil_or_concat' (comp :: rest)).resolve_left hne
      have hmem : last ∈ comp :: rest := by simp [hsplit]
      obtain ⟨dir, hdir⟩ := Path.join_append_singleton init last
      rw [hsplit, hdir, List.getLast?_append_of_ne_nil _ (hproper last hmem).nonempty]
      exact fun h => (hproper last hmem).no_slash (List.mem_of_getLast? h)
    change (cloudStore kind root readSize).fullKey _ = _
    rw [cloudStore_fullKey, joinKey_rooted root hhead, trimRight_eq_self hlast]
  | filesystem =>
    refine ⟨[], fun comps hne hproper => ?_⟩
    change (Path.clean ('/' :: join ['/'] comps)).drop 1 = _
    rw [Path.clean_rooted_proper hne hproper]
    rfl

theorem keepsApart (kind : BackendKind) (readSize : Nat → Nat) (c n : ObjectName) :
    KeepsApart (kind.open readSize) c.val n.val := by
  obtain ⟨dir, hdir⟩ := kind.fullKey_proper readSize
  have hmanifest : (kind.open readSize).fullKey (manifestKey c.val n.val) =
      dir ++ manifestKey c.val n.val := by
    have hkey : manifestKey c.val n.val = join ['/'] [c.val, n.val, manifestFilename] := by
      simp [manifestKey_eq, setPrefix_eq, Path.join_cons]
    rw [hkey]
    exact hdir _ (by simp) (by simp [c.proper, n.proper, manifestFilename_proper])
  have hdump : ∀ i, (kind.open readSize).fullKey (shardRDBKey c.val n.val i) =
      dir ++ shardRDBKey c.val n.val i := by
    intro i
    have hkey : shardRDBKey c.val n.val i =
        join ['/'] [c.val, n.val, shardName i, rdbFilename] := by
      simp [shardRDBKey_eq, setPrefix_eq, Path.join_cons]
    rw [hkey]
    exact hdir _ (by simp) (by simp [c.proper, n.proper, shardName_proper, rdbFilename_proper])
  constructor
  · intro i h
    rw [hmanifest, hdump, List.append_cancel_left_eq] at h
    exact shardRDBKey_ne_manifestKey _ _ _ h
  · intro i i' h
    rw [hdump, hdump, List.append_cancel_left_eq] at h
    exact shardRDBKey_injective c n h

/-! ## What a manifest promises -/

section Described

variable (sha256 : Bytes → Str) (b : Backend) (cluster backup : Str)

/-- Every dump the manifest lists is stored, with the recorded size and hash. -/
def Holds (objects : Objects) (man : Manifest) : Prop :=
  ∀ frag ∈ man.shards, ∃ dump,
    objects.lookup (b.fullKey (shardRDBKey cluster backup frag.index)) = some dump ∧
      frag.sizeBytes = dump.length ∧ frag.sha256 = sha256 dump

/-- A manifest that can be read describes what is stored. -/
def Described (codec : Codec) (objects : Objects) : Prop :=
  ∀ man, Readable codec b cluster backup objects man → Holds sha256 b cluster backup objects man

end Described

/-! ## Runs -/

/-- One run for a set: the shards of the moment, numbered by rank, their streams, the
replies of the store, and the upload after which it is cut short. -/
structure SetRun (ρ : Type) where
  mode : Str
  crVersion : Str
  engineVersion : Str
  consistency : Str
  timestamp : Str
  shards : List ShardPrimary
  ranked : (shards.map ShardPrimary.index).Nodup
  source : RDBSource ρ
  script : List Reply
  cut : Nat

section SetRun

variable {ρ : Type} (sha256 : Bytes → Str) (codec : Codec) (S : Sorter ShardPrimary)
  (S' : Sorter SlotRange) (b : Backend) (cluster backup : Str)

def SetRun.options (r : SetRun ρ) : BackupOptions Journal ρ where
  cluster := cluster
  backupName := backup
  mode := r.mode
  crVersion := r.crVersion
  engineVersion := r.engineVersion
  consistency := r.consistency
  store := some b.journaled
  shards := r.shards
  newRDBSource := some r.source
  timestamp := r.timestamp

/-- The objects at the moment a run is cut short. -/
def SetRun.perform (objects : Objects) (r : SetRun ρ) : Objects :=
  let run := runBackup sha256 codec.marshalIndent S S' (r.options b cluster backup)
  objectsAfter objects ((run.after ⟨⟨objects, r.script⟩, []⟩).calls.take r.cut)

/-- A run that would not contradict the manifest it finds: of a shard that a readable
manifest lists it reads the very dump that is recorded there. -/
def Repeats (objects : Objects) (r : SetRun ρ) : Prop :=
  ∀ man, Readable codec b cluster backup objects man → ∀ frag ∈ man.shards,
    ∀ sp ∈ r.shards, sp.index = frag.index →
      ∀ stream length, r.source.openStream sp = .ok (stream, length) →
        frag.sizeBytes = (r.source.reader.content stream).length ∧
          frag.sha256 = sha256 (r.source.reader.content stream)

/-! ### Uploads and the objects after them -/

variable {b cluster backup}

theorem Chained.take (h : Chained b before calls) (k : Nat) : Chained b before (calls.take k) := by
  induction calls generalizing before k with
  | nil => simpa using h
  | cons call rest ih =>
    cases k with
    | zero => trivial
    | succ k => exact ⟨h.1, ih h.2 k⟩

theorem objectsAfter_append (before : Objects) (calls : List PutCall) (last : PutCall) :
    objectsAfter before (calls ++ [last]) = last.objects := by
  induction calls generalizing before with
  | nil => rfl
  | cons call rest ih => exact ih call.objects

theorem Chained.lookup_of_ne {name : Str} (h : Chained b before calls)
    (hne : ∀ call ∈ calls, b.fullKey call.key ≠ name) :
    (objectsAfter before calls).lookup name = before.lookup name := by
  induction calls generalizing before with
  | nil => rfl
  | cons call rest ih =>
    have hrest := ih h.2 fun call' hcall' => hne call' (by simp [hcall'])
    refine hrest.trans ?_
    rcases h.1 with hstored | ⟨-, hkept⟩
    · rw [hstored, AList.lookup_insert_ne (hne call (by simp)).symm]
    · rw [hkept]

/-- An acknowledged dump is stored once the loop is over: no other shard has its key. -/
theorem Chained.lookup_taken (hapart : KeepsApart b cluster backup)
    (h : Chained b before (attempts.map Prod.snd))
    (hkey : ∀ a ∈ attempts, a.2.key = shardRDBKey cluster backup a.1.index)
    (hranked : (attempts.map (·.1.index)).Nodup) {a : Attempt} (ha : a ∈ taken attempts) :
    (objectsAfter before (attempts.map Prod.snd)).lookup
      (b.fullKey (shardRDBKey cluster backup a.1.index)) = some a.2.bytes := by
  obtain ⟨hmem, hacked⟩ := List.mem_filter.mp ha
  induction attempts generalizing before with
  | nil => cases hmem
  | cons first rest ih =>
    obtain ⟨hfresh, hranked⟩ := List.nodup_cons.mp hranked
    have hrest : ∀ a ∈ rest, a.2.key = shardRDBKey cluster backup a.1.index :=
      fun a' ha' => hkey a' (by simp [ha'])
    rcases List.mem_cons.mp hmem with rfl | hmem
    · have hothers : ∀ call ∈ rest.map Prod.snd,
          b.fullKey call.key ≠ b.fullKey (shardRDBKey cluster backup a.1.index) := by
        intro call hcall heq
        obtain ⟨a', ha', rfl⟩ := List.mem_map.mp hcall
        rw [hrest a' ha'] at heq
        exact hfresh (List.mem_map.mpr ⟨a', ha', hapart.dumps heq⟩)
      refine (h.2.lookup_of_ne hothers).trans ?_
      rcases h.1 with hstored | ⟨hfailed, -⟩
      · rw [hstored, hkey a (by simp), AList.lookup_insert]
      · rw [hacked] at hfailed
        cases hfailed
    · exact ih h.2 hrest hranked (List.mem_filter.mpr ⟨hmem, hacked⟩) hmem

/-! ### The uploads of dumps -/

/-- The uploads of dumps that agree with a manifest keep what it promises. -/
theorem Holds.after_dumps {sha256 : Bytes → Str} (hapart : KeepsApart b cluster backup)
    (h : Holds sha256 b cluster backup before man) (hchained : Chained b before calls)
    (hcalls : ∀ call ∈ calls, ∃ i, call.key = shardRDBKey cluster backup i ∧
      ∀ frag ∈ man.shards, frag.index = i →
        frag.sizeBytes = call.bytes.length ∧ frag.sha256 = sha256 call.bytes) :
    Holds sha256 b cluster backup (objectsAfter before calls) man := by
  induction calls generalizing before with
  | nil => exact h
  | cons call rest ih =>
    refine ih ?_ hchained.2 fun call' hcall' => hcalls call' (by simp [hcall'])
    obtain ⟨i, hkey, hagrees⟩ := hcalls call (by simp)
    intro frag hfrag
    rcases hchained.1 with hstored | ⟨-, hkept⟩
    · rw [hstored, hkey]
      by_cases hi : frag.index = i
      · refine ⟨call.bytes, ?_, hagrees frag hfrag hi⟩
        rw [hi, AList.lookup_insert]
      · obtain ⟨dump, hdump, hrecorded⟩ := h frag hfrag
        refine ⟨dump, ?_, hrecorded⟩
        rw [AList.lookup_insert_ne fun heq => hi (hapart.dumps heq), hdump]
    · rw [hkept]
      exact h frag hfrag

variable {sha256 codec}

/-- While a run uploads its dumps, the manifest it found stays and keeps describing
what is stored. -/
theorem Described.after_dumps (hapart : KeepsApart b cluster backup) {r : SetRun ρ}
    (h : Described sha256 b cluster backup codec objects)
    (hrepeats : Repeats sha256 codec b cluster backup objects r)
    (hwithin : ∀ a ∈ attempts, a.1 ∈ r.shards)
    (hattempted : ∀ a ∈ attempts, Attempts (r.options b cluster backup) r.source a.1 a.2)
    (hchained : Chained b objects (attempts.map Prod.snd)) :
    Described sha256 b cluster backup codec (objectsAfter objects (attempts.map Prod.snd)) := by
  intro man hread
  have hdumps : ∀ call ∈ attempts.map Prod.snd,
      b.fullKey call.key ≠ b.fullKey (manifestKey cluster backup) := by
    intro call hcall
    obtain ⟨a, ha, rfl⟩ := List.mem_map.mp hcall
    rw [(hattempted a ha).key]
    exact hapart.manifest _
  have hbefore : Readable codec b cluster backup objects man := by
    rw [readable_iff] at hread ⊢
    rwa [hchained.lookup_of_ne hdumps] at hread
  refine (h man hbefore).after_dumps hapart hchained fun call hcall => ?_
  obtain ⟨a, ha, rfl⟩ := List.mem_map.mp hcall
  obtain ⟨stream, length, hopen, hbytes, -⟩ := (hattempted a ha).stream
  refine ⟨a.1.index, (hattempted a ha).key, fun frag hfrag hindex => ?_⟩
  rw [hbytes]
  exact hrepeats man hbefore frag hfrag a.1 (hwithin a ha) hindex.symm stream length hopen

/-- The manifest a run writes describes the dumps it has uploaded. -/
theorem described_of_sealed (hapart : KeepsApart b cluster backup) {r : SetRun ρ} {last : PutCall}
    {shards : List ShardPrimary}
    (hattempted : ∀ a ∈ attempts, Attempts (r.options b cluster backup) r.source a.1 a.2)
    (hchained : Chained b objects (attempts.map Prod.snd))
    (hranked : (attempts.map (·.1.index)).Nodup)
    (hman : Describes sha256 (r.options b cluster backup) shards attempts man)
    (hseals : Seals (r.options b cluster backup) codec.marshalIndent man last)
    (hstored : last.objects = (objectsAfter objects (attempts.map Prod.snd)).insert
      (b.fullKey last.key) last.bytes) : Described sha256 b cluster backup codec last.objects := by
  intro man' hread
  have hkey : last.key = manifestKey cluster backup := hseals.key
  obtain ⟨data, hdata, hunmarshal⟩ := readable_iff.mp hread
  rw [hstored, hkey, AList.lookup_insert] at hdata
  obtain rfl := Option.some.inj hdata
  have hshards := shards_of_marshalManifest hseals.bytes hunmarshal
  intro frag hfrag
  rw [hshards, hman.listed] at hfrag
  obtain ⟨a, ha, rfl⟩ := List.mem_map.mp hfrag
  refine ⟨a.2.bytes, ?_, rfl, rfl⟩
  have hdump := hchained.lookup_taken hapart (fun a ha => (hattempted a ha).key) hranked ha
  rw [hstored, hkey]
  exact (AList.lookup_insert_ne (hapart.manifest _)).trans hdump

variable (sha256 codec)

theorem Described.perform (hapart : KeepsApart b cluster backup) {r : SetRun ρ}
    (h : Described sha256 b cluster backup codec objects)
    (hrepeats : Repeats sha256 codec b cluster backup objects r) :
    Described sha256 b cluster backup codec
      (r.perform sha256 codec S S' b cluster backup objects) := by
  obtain ⟨attempts, v, hup, hends⟩ := runBackup_journal sha256 b (r.options b cluster backup)
    r.source codec.marshalIndent S S' rfl rfl ⟨⟨objects, r.script⟩, []⟩
  have hwithin : ∀ a ∈ attempts, a.1 ∈ r.shards := fun a ha =>
    S.mem_sort.mp (hup.within.subset (List.mem_map_of_mem ha))
  have hranked : (attempts.map (·.1.index)).Nodup := hup.ranked r.ranked
  -- wherever the run is cut among its dumps
  have hdumps : ∀ k, Described sha256 b cluster backup codec
      (objectsAfter objects ((attempts.map Prod.snd).take k)) := by
    intro k
    have hchained := hup.chained.take k
    rw [← List.map_take] at hchained ⊢
    exact h.after_dumps hapart hrepeats (fun a ha => hwithin a (List.mem_of_mem_take ha))
      (fun a ha => hup.attempted a (List.mem_of_mem_take ha)) hchained
  have hcalls : v.calls = attempts.map Prod.snd := by simpa using hup.calls
  have hcut : ∀ j', (runBackup sha256 codec.marshalIndent S S' (r.options b cluster backup)).after
        ⟨⟨objects, r.script⟩, []⟩ = j' →
      r.perform sha256 codec S S' b cluster backup objects =
        objectsAfter objects (j'.calls.take r.cut) := by
    rintro j' rfl
    rfl
  rcases hends with ⟨e, hrun⟩ | ⟨man, last, j', hman, -, hseals, hext, hend⟩
  · rw [hcut v (by unfold Action.after; rw [hrun]), hcalls]
    exact hdumps r.cut
  · have hafter : (runBackup sha256 codec.marshalIndent S S' (r.options b cluster backup)).after
        ⟨⟨objects, r.script⟩, []⟩ = j' := by
      unfold Action.after
      rcases hend with ⟨-, hrun⟩ | ⟨e, -, hrun⟩ <;> rw [hrun]
    rw [hcut j' hafter, hext.calls, hcalls]
    by_cases hbefore : r.cut ≤ (attempts.map Prod.snd).length
    · rw [List.take_append_of_le_length hbefore]
      exact hdumps r.cut
    · rw [List.take_of_length_le (by simp at hbefore ⊢; omega), objectsAfter_append]
      have hall := hdumps (attempts.map Prod.snd).length
      rw [List.take_length] at hall
      have hstores := hext.stores
      rw [hup.objects] at hstores
      rcases hstores with hstored | ⟨-, hkept⟩
      · exact described_of_sealed hapart hup.attempted hup.chained hranked hman hseals hstored
      · rw [hkept]
        exact hall

/-- However many runs write the set and wherever each is cut short: as long as no run
finds a manifest that it contradicts, a manifest that can be read describes what is
stored. -/
theorem manifest_describes_reruns (kind : BackendKind) (readSize : Nat → Nat) (c n : ObjectName)
    {before after : Objects}
    (hstart : Described sha256 (kind.open readSize) c.val n.val codec before)
    (hruns : Runs
      (fun objects (r : SetRun ρ) =>
        r.perform sha256 codec S S' (kind.open readSize) c.val n.val objects)
      (Repeats sha256 codec (kind.open readSize) c.val n.val) before after) :
    Described sha256 (kind.open readSize) c.val n.val codec after :=
  hruns.preserves (fun _ _ hrepeats hdescribed =>
    hdescribed.perform sha256 codec S S' (keepsApart kind readSize c n) hrepeats) hstart

end SetRun

/-- The format of texts can write every manifest. -/
def textCodec : Codec where
  marshalIndent m := .ok (manifestText m)
  unmarshal data :=
    match manifestOfText data with
    | some m => .ok m
    | none => .error { msg := "invalid manifest" }
  round_trip := by
    rintro m _ ⟨⟩
    simp only [manifestOfText_text]

/-! ### One shard, dumped twice -/

def onePrimary : ShardPrimary :=
  ⟨0, "n0", "10.0.0.7:6379", [⟨0, 16383⟩], 0⟩

/-- A run over one primary that has all slots. -/
def oneShardRun (dump : Bytes) (cut : Nat) : SetRun (Bytes × End) where
  mode := "cluster"
  crVersion := []
  engineVersion := []
  consistency := "strict"
  timestamp := []
  shards := [onePrimary]
  ranked := List.nodup_singleton _
  source := constantSource dump
  script := []
  cut := cut

/-- The manifest such a run writes for backup `bk-1` of cluster `prod`. -/
def oneShardManifest (dump : Bytes) : Manifest where
  schemaVersion := manifestSchemaVersion
  apiVersion := manifestAPIVersion
  cluster := "prod"
  backupName := "bk-1"
  mode := "cluster"
  crVersion := []
  engineVersion := []
  createdAt := []
  consistency := "strict"
  slotCoverage := "complete"
  shards := [fragment hexChecksum onePrimary dump]

/-- The objects of `bk-1` after the runs. -/
def afterRuns (runs : List (SetRun (Bytes × End))) : Objects :=
  runs.foldl (SetRun.perform hexChecksum textCodec .insertion .insertion
    ((BackendKind.cloud .s3 []).open fun _ => 1) "prod" "bk-1") ∅

/-- A first run that is cut short before its manifest, and a second that completes. -/
theorem manifest_describes_reruns_cutFirst :
    let b := (BackendKind.cloud .s3 []).open fun _ => 1
    let objects := afterRuns [oneShardRun "old" 1, oneShardRun "new" 2]
    (objects.lookup "prod/bk-1/manifest.json".toList =
        some (manifestText (oneShardManifest "new")) ∧
      objects.lookup "prod/bk-1/shard-0/dump.rdb".toList = some "new".toList) ∧
    Described hexChecksum b "prod" "bk-1" textCodec objects := by
  intro b objects
  let cluster : ObjectName := ⟨"prod", by decide +kernel⟩
  let backup : ObjectName := ⟨"bk-1", by decide +kernel⟩
  -- nothing can be read before the second run completes
  have hunread : ∀ objects' : Objects,
      objects'.lookup (b.fullKey (manifestKey cluster.val backup.val)) = none →
      ∀ man, ¬ Readable textCodec b cluster.val backup.val objects' man := by
    intro objects' hnone man hread
    obtain ⟨data, hdata, -⟩ := readable_iff.mp hread
    rw [hnone] at hdata
    cases hdata
  have hallows : Runs.Allows
      (SetRun.perform hexChecksum textCodec .insertion .insertion b cluster.val backup.val)
      (Repeats hexChecksum textCodec b cluster.val backup.val) ∅
      [oneShardRun "old" 1, oneShardRun "new" 2] :=
    ⟨fun man hread => absurd hread (hunread _ rfl man),
      fun man hread => absurd hread (hunread _ (by decide +kernel) man), trivial⟩
  exact ⟨by decide +kernel, manifest_describes_reruns hexChecksum textCodec .insertion .insertion
    (.cloud .s3 []) (fun _ => 1) cluster backup (fun man hread => absurd hread (hunread _ rfl man))
    (Runs.of_allows hallows)⟩

/-- A second run over the same set, cut short after its first upload: the manifest of the
first run stays and records the hash of a dump that is no longer there. -/
theorem rerun_contradicts_manifest :
    let b := (BackendKind.cloud .s3 []).open fun _ => 1
    let objects := afterRuns [oneShardRun "old" 2, oneShardRun "new" 1]
    (objects.lookup "prod/bk-1/manifest.json".toList =
        some (manifestText (oneShardManifest "old")) ∧
      objects.lookup "prod/bk-1/shard-0/dump.rdb".toList = some "new".toList) ∧
    Described hexChecksum b "prod" "bk-1" textCodec ∅ ∧
    ¬ Described hexChecksum b "prod" "bk-1" textCodec objects := by
  intro b objects
  have hmanifest : objects.lookup "prod/bk-1/manifest.json".toList =
      some (manifestText (oneShardManifest "old")) := by
    decide +kernel
  have hdump : objects.lookup "prod/bk-1/shard-0/dump.rdb".toList = some "new".toList := by
    decide +kernel
  have hkeys : b.fullKey (manifestKey "prod" "bk-1") =
      "prod/bk-1/manifest.json" ∧
      b.fullKey (shardRDBKey "prod" "bk-1" 0) =
        "prod/bk-1/shard-0/dump.rdb" := by
    decide +kernel
  refine ⟨⟨hmanifest, hdump⟩, fun man hread => ?_, fun hdescribed => ?_⟩
  · obtain ⟨data, hdata, -⟩ := readable_iff.mp hread
    cases hdata
  · have hread : Readable textCodec b "prod" "bk-1" objects
        (oneShardManifest "old") :=
      readable_iff.mpr ⟨_, hkeys.1 ▸ hmanifest, by decide +kernel⟩
    obtain ⟨dump, hstored, -, hhash⟩ := hdescribed _ hread
      (fragment hexChecksum onePrimary "old") (by simp [oneShardManifest])
    have hsame : some dump = some "new".toList := hstored.symm.trans (hkeys.2 ▸ hdump)
    rw [Option.some.inj hsame] at hhash
    exact absurd hhash (by decide)

end ValkeyOperator.Backup

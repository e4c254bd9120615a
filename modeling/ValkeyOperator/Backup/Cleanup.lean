import ValkeyOperator.Backup.Store

/-! Removing a backup-set (`cmd/valkey-backup/cleanup.go`).

Cleanup deletes the manifest, then whatever a list call for the set's root key
returns, then lists again. Which objects it can touch is decided by what the
backend lists: `runCleanup_frame` names them for every backend, and for the
object stores, which list by plain string prefix, they are not only the
objects of the set's own directory. With a listing that stops at directory
boundaries, cleanups may stop anywhere and be started again
(`runCleanup_crash_safe`). -/

namespace ValkeyOperator.Backup
open Text

variable {objects : Objects}

structure CleanupOptions (W : Type) where
  cluster : Str
  backupName : Str
  store : Option (ArtifactStore W)

/-- The set is to be gone: an error names how many objects are not. -/
def notFullyRemoved (setRoot : Str) (remaining : List Str) : Err :=
  { msg := "set " ++ quote setRoot ++ " not fully removed: " ++
      itoa remaining.length ++ " objects remain" }

def runCleanup {W : Type} (o : CleanupOptions W) : Action W Unit :=
  match o.store with
  | none => throw { msg := "cleanup: nil store" }
  | some store => do
    Action.mapErr (Err.wrap "delete manifest")
      (store.delete (manifestKey o.cluster o.backupName))
    let setRoot := setPrefix o.cluster o.backupName
    let keys ← Action.mapErr (Err.wrap ("list set " ++ quote setRoot)) (store.list setRoot)
    keys.forM fun key =>
      Action.mapErr (Err.wrap ("delete " ++ quote key)) (store.delete key)
    let remaining ← Action.mapErr
      (Err.wrap ("verify set " ++ quote setRoot ++ " empty")) (store.list setRoot)
    if remaining.length ≠ 0 then throw (notFullyRemoved setRoot remaining)

/-! ## What a run can touch -/

section Frame

variable (b : Backend) (before : Objects) (name : Str)

/-- Nothing was added to the bucket, and the object `name` is as before. -/
def Spared (w : Bucket) : Prop :=
  (∀ k ∈ w.objects, k ∈ before) ∧ w.objects.lookup name = before.lookup name

theorem Spared.erase {w : Bucket} {key : Str} (h : Spared before name w) (hne : name ≠ key) :
    Spared before name (w.erase key) := by
  refine ⟨fun k hk => h.1 k (AList.mem_erase.mp hk).2, ?_⟩
  rw [← h.2]
  exact AList.lookup_erase_ne hne

theorem delete_keeps {key : Str} (hne : name ≠ b.fullKey key) :
    Action.Keeps (Spared before name) (b.delete key) fun _ => True := by
  intro w hw
  have herase : Spared before name (w.called.erase (b.fullKey key)) := hw.erase before name hne
  refine ⟨?_, fun _ _ => trivial⟩
  unfold Action.after Backend.delete
  cases w.reply with
  | ok => exact herase
  | refused m => exact hw
  | lost m => exact herase

theorem list_keeps (pfx : Str) :
    Action.Keeps (Spared before name) (b.list pfx) fun keys =>
      ∀ key ∈ keys, ∃ k ∈ before, b.selects k (b.listPrefix pfx) = true ∧ key = b.stripPrefix k := by
  intro w hw
  unfold Action.after Action.outcome Backend.list
  cases w.reply with
  | refused m => exact ⟨hw, fun x hx => nomatch hx⟩
  | lost m => exact ⟨hw, fun x hx => nomatch hx⟩
  | ok =>
    refine ⟨hw, fun keys hkeys key hkey => ?_⟩
    cases hkeys
    obtain ⟨k, hk, rfl⟩ := List.mem_map.mp hkey
    obtain ⟨hmem, hsel⟩ := List.mem_filter.mp hk
    exact ⟨k, hw.1 k (AList.mem_keys.mpr hmem), hsel, rfl⟩

/-- Whatever calls fail, a cleanup leaves alone every object that is neither
the manifest nor the image of a listed name under strip and re-root. -/
theorem runCleanup_frame {c n : Str} (hmanifest : name ≠ b.fullKey (manifestKey c n))
    (hlisted : ∀ k ∈ before, b.selects k (b.listPrefix (setPrefix c n)) = true →
      name ≠ b.fullKey (b.stripPrefix k)) :
    Action.Keeps (Spared before name) (runCleanup ⟨c, n, some b.toStore⟩) fun _ => True := by
  refine (delete_keeps b before name hmanifest).mapErr.bind fun _ _ => ?_
  refine (list_keeps b before name _).mapErr.bind fun keys hkeys => ?_
  refine (Action.Keeps.forM fun key hkey => Action.Keeps.mapErr ?_).bind fun _ _ => ?_
  · obtain ⟨k, hk, hsel, rfl⟩ := hkeys key hkey
    exact delete_keeps b before name (hlisted k hk hsel)
  refine (list_keeps b before name _).mapErr.bind fun remaining _ => ?_
  split
  · exact Action.Keeps.throw _
  · exact Action.Keeps.pure trivial

end Frame

/-! ## A run in which every call goes through -/

/-- The bucket without the objects the given keys name. -/
def eraseAll (b : Backend) (objects : Objects) (keys : List Str) : Objects :=
  keys.foldl (fun o key => o.erase (b.fullKey key)) objects

theorem forM_delete_returns (b : Backend) (ctx : Str → Err → Err)
    (objects : Objects) (keys : List Str) :
    Action.Returns (keys.forM fun key => Action.mapErr (ctx key) (b.delete key)) ⟨objects, []⟩ ()
      ⟨eraseAll b objects keys, []⟩ := by
  induction keys generalizing objects with
  | nil => rfl
  | cons key keys ih => exact ih (objects.erase (b.fullKey key))

theorem lookup_eraseAll_of_none (b : Backend) {name : Str} (h : objects.lookup name = none)
    (keys : List Str) : (eraseAll b objects keys).lookup name = none := by
  induction keys generalizing objects with
  | nil => exact h
  | cons key keys ih =>
    refine ih ?_
    by_cases hk : name = b.fullKey key
    · rw [hk]; exact AList.lookup_erase _ _
    · rw [AList.lookup_erase_ne hk]; exact h

theorem lookup_eraseAll_of_mem (b : Backend) (objects : Objects)
    {name key : Str} (hname : b.fullKey key = name) {keys : List Str} (hkey : key ∈ keys) :
    (eraseAll b objects keys).lookup name = none := by
  induction keys generalizing objects with
  | nil => cases hkey
  | cons k keys ih =>
    rcases List.mem_cons.mp hkey with rfl | hkey
    · refine lookup_eraseAll_of_none b ?_ keys
      subst hname; exact AList.lookup_erase _ _
    · exact ih _ hkey

/-- Once the deletes go through, the second listing and its verdict change
nothing in the bucket. -/
theorem runCleanup_after_ok (b : Backend) (c n : Str) (objects : Objects) :
    ((runCleanup ⟨c, n, some b.toStore⟩).after ⟨objects, []⟩).objects =
      eraseAll b (objects.erase (b.fullKey (manifestKey c n)))
        ((b.listed ⟨objects.erase (b.fullKey (manifestKey c n)), []⟩ (setPrefix c n)).map
          b.stripPrefix) := by
  have hdelete : Action.Returns (b.delete (manifestKey c n)) ⟨objects, []⟩ ()
      ⟨objects.erase (b.fullKey (manifestKey c n)), []⟩ := rfl
  have hlist (o : Objects) : Action.Returns (b.list (setPrefix c n))
      ⟨o, []⟩ ((b.listed ⟨o, []⟩ (setPrefix c n)).map b.stripPrefix) ⟨o, []⟩ := rfl
  simp only [runCleanup, Backend.toStore]
  rw [(hdelete.under_mapErr _).after_bind, ((hlist _).under_mapErr _).after_bind,
    (forM_delete_returns b _ _ _).after_bind, ((hlist _).under_mapErr _).after_bind]
  split <;> rfl

/-! ## The object stores -/

/-- The object name of the set's root, without a trailing slash. -/
def ownRoot (root : Str) (c n : ObjectName) : Str := rootDir root ++ (c.val ++ '/' :: n.val)

/-- The set's own directory. -/
def ownDir (root : Str) (c n : ObjectName) : Str := ownRoot root c n ++ ['/']

theorem ObjectName.head (c : ObjectName) : ∃ a t, c.val = a :: t ∧ a ≠ '/' := by
  obtain ⟨a, t, h⟩ := List.exists_cons_of_ne_nil c.proper.nonempty
  exact ⟨a, t, h, fun e => c.proper.no_slash (by simp [h, e])⟩

theorem ObjectName.last (n : ObjectName) (s : Str) : (s ++ n.val).getLast? ≠ some '/' := by
  rw [List.getLast?_append_of_ne_nil _ n.proper.nonempty]
  exact fun h => n.proper.no_slash (List.mem_of_getLast? h)

section Cloud

variable (kind : CloudKind) (root : Str) (readSize : Nat → Nat) (c n : ObjectName)

theorem cloud_rooted {k rest : Str} (hk : k = c.val ++ rest) :
    (cloudStore kind root readSize).fullKey k = rootDir root ++ trimRight '/' k := by
  obtain ⟨a, t, hc, ha⟩ := c.head
  rw [cloudStore_fullKey]
  exact joinKey_rooted root ⟨a, t ++ rest, by simp [hk, hc], ha⟩

theorem cloud_listPrefix_set :
    (cloudStore kind root readSize).listPrefix (setPrefix c.val n.val) = ownRoot root c n := by
  rw [cloudStore_listPrefix, ← cloudStore_fullKey kind root readSize, setPrefix_eq,
    cloud_rooted kind root readSize c rfl, ownRoot]
  rw [trimRight_eq_self]
  simpa using n.last (c.val ++ ['/'])

/-- Deleting a listed name deletes that name without the slashes at its end. -/
theorem cloud_delete_target {name : Str} (h : ownRoot root c n <+: name) :
    (cloudStore kind root readSize).fullKey ((cloudStore kind root readSize).stripPrefix name) =
      trimRight '/' name := by
  obtain ⟨rest, rfl⟩ := h
  obtain ⟨a, t, hc, ha⟩ := c.head
  have hname : ownRoot root c n ++ rest = rootDir root ++ a :: (t ++ '/' :: n.val ++ rest) := by
    simp [ownRoot, hc]
  have hkey : a :: (t ++ '/' :: n.val ++ rest) = (c.val ++ '/' :: n.val) ++ rest := by simp [hc]
  have hlast : (c.val ++ '/' :: n.val).getLast? ≠ some '/' := by
    simpa using n.last (c.val ++ ['/'])
  have hroot : (ownRoot root c n).getLast? ≠ some '/' := by
    simpa [ownRoot] using n.last (rootDir root ++ (c.val ++ ['/']))
  rw [hname, cloudStore_stripPrefix kind root readSize ha, hkey, cloud_rooted kind root readSize c
    (List.append_assoc _ _ _), trimRight_append hlast, ← hkey, ← hname, trimRight_append hroot]
  simp [ownRoot]

theorem cloud_manifest :
    (cloudStore kind root readSize).fullKey (manifestKey c.val n.val) =
      ownDir root c n ++ manifestFilename := by
  have hlast : (c.val ++ '/' :: n.val ++ '/' :: manifestFilename).getLast? ≠ some '/' := by
    rw [List.getLast?_append_of_ne_nil _ (by simp)]
    decide
  rw [manifestKey_eq, setPrefix_eq, cloud_rooted kind root readSize c (List.append_assoc _ _ _),
    trimRight_eq_self hlast]
  simp [ownDir, ownRoot]

/-- What a cleanup deletes from an object store is confined to the set's own
directory exactly when no other stored name continues the set's root key: the
list call selects by plain string prefix, so a set named `bk-10` is listed for
`bk-1`. (Names that end with a slash are listed too, but the delete that
follows is for the name without it.) -/
theorem runCleanup_spares_others_iff (objects : Objects) :
    (∀ script, ∀ name ∈ objects, ¬ ownDir root c n <+: name →
      ((runCleanup ⟨c.val, n.val, some (cloudStore kind root readSize).toStore⟩).after
        ⟨objects, script⟩).objects.lookup name = objects.lookup name) ↔
    ∀ name ∈ objects, ownRoot root c n <+: name →
      ownDir root c n <+: name ∨ name.getLast? = some '/' := by
  constructor
  · intro h name hmem hown
    by_contra hcon
    obtain ⟨hdir, hlast⟩ := not_or.mp hcon
    have hkept := h [] name hmem hdir
    have htarget := cloud_delete_target kind root readSize c n hown
    rw [trimRight_eq_self hlast] at htarget
    -- the manifest lies in the set's directory, so deleting it first does not hide `name`
    have hmanifest : name ≠ (cloudStore kind root readSize).fullKey (manifestKey c.val n.val) := by
      rw [cloud_manifest]
      rintro rfl
      exact hdir (List.prefix_append _ _)
    have hlisted : (cloudStore kind root readSize).stripPrefix name ∈
        ((cloudStore kind root readSize).listed ⟨objects.erase
          ((cloudStore kind root readSize).fullKey (manifestKey c.val n.val)), []⟩
          (setPrefix c.val n.val)).map (cloudStore kind root readSize).stripPrefix := by
      refine List.mem_map_of_mem (List.mem_filter.mpr ⟨?_, ?_⟩)
      · exact AList.mem_keys.mp (AList.mem_erase.mpr ⟨hmanifest, hmem⟩)
      · rw [cloud_listPrefix_set]
        exact (cloudStore_selects kind root readSize name _).mpr hown
    rw [runCleanup_after_ok, lookup_eraseAll_of_mem _ _ htarget hlisted] at hkept
    exact absurd (AList.lookup_isSome.mpr hmem) (by simp [← hkept])
  · intro h script name hmem hdir
    refine (runCleanup_frame (cloudStore kind root readSize) objects name ?_ ?_ ⟨objects, script⟩
      ⟨fun _ hk => hk, rfl⟩).1.2
    · rw [cloud_manifest]
      rintro rfl
      exact hdir (List.prefix_append _ _)
    · intro k hk hsel
      rw [cloud_listPrefix_set] at hsel
      have hown := (cloudStore_selects kind root readSize k _).mp hsel
      rw [cloud_delete_target kind root readSize c n hown]
      rintro rfl
      -- the target of the delete is itself stored, continues the root key and ends in no slash
      have hroot : ownRoot root c n <+: trimRight '/' k := by
        obtain ⟨rest, rfl⟩ := hown
        rw [trimRight_append (by simpa [ownRoot] using n.last (rootDir root ++ (c.val ++ ['/'])))]
        exact List.prefix_append _ _
      rcases h _ hmem hroot with hd | hl
      · exact hdir hd
      · exact trimRight_getLast? '/' k hl

end Cloud

/-- Cleaning up `bk-1` of cluster `prod` from an S3 bucket reports success and
takes the manifest of `bk-10` with it. -/
theorem runCleanup_deletes_sibling_set :
    let bucket : Bucket := ⟨[⟨"dumps/prod/bk-1/manifest.json", "1"⟩,
      ⟨"dumps/prod/bk-10/manifest.json", "10"⟩].toAList, []⟩
    let cleanup := runCleanup ⟨"prod", "bk-1", some (s3Store "dumps" fun _ => 0).toStore⟩
    cleanup.outcome bucket = .ok () ∧
      bucket.objects.lookup "dumps/prod/bk-10/manifest.json".toList = some "10".toList ∧
      (cleanup.after bucket).objects.lookup "dumps/prod/bk-10/manifest.json".toList = none := by
  decide

/-! ## The filesystem store -/

/-- `name` is `dir` itself or lies below it. -/
def AtOrBelow (dir name : Str) : Prop := name = dir ∨ dir ++ ['/'] <+: name

/-- Of the names in `objects`, listing the set's root key selects those at or
below it, and reports each as a key that leads back to it. -/
structure ListsDirectory (b : Backend) (c n : Str)
    (objects : Objects) : Prop where
  selects : ∀ name ∈ objects, b.selects name (b.listPrefix (setPrefix c n)) = true ↔
    AtOrBelow (b.fullKey (setPrefix c n)) name
  leadsBack : ∀ name ∈ objects, AtOrBelow (b.fullKey (setPrefix c n)) name →
    b.fullKey (b.stripPrefix name) = name

section Filesystem

variable (readSize : Nat → Nat)

theorem fsStore_fullKey (components : List Str) (hne : components ≠ [])
    (hproper : ∀ x ∈ components, Path.Proper x) :
    (fsStore readSize).fullKey (join ['/'] components) = join ['/'] components := by
  change (Path.clean ('/' :: join ['/'] components)).drop 1 = _
  rw [Path.clean_rooted_proper hne hproper, List.drop_one, List.tail_cons]

theorem fsStore_setRoot (c n : ObjectName) :
    (fsStore readSize).fullKey (setPrefix c.val n.val) = ownRoot [] c n := by
  have hroot := fsStore_fullKey readSize [c.val, n.val] (by simp)
    (by simp [c.proper, n.proper])
  have hkey : join ['/'] [c.val, n.val] = setPrefix c.val n.val := by
    simp [setPrefix_eq, Path.join_cons]
  rw [← hkey, hroot, hkey]
  exact setPrefix_eq c n

theorem fsStore_manifest (c n : ObjectName) :
    (fsStore readSize).fullKey (manifestKey c.val n.val) = ownDir [] c n ++ manifestFilename := by
  have hfull := fsStore_fullKey readSize [c.val, n.val, manifestFilename] (by simp)
    (by simp [c.proper, n.proper, manifestFilename_proper])
  have hkey : join ['/'] [c.val, n.val, manifestFilename] = manifestKey c.val n.val := by
    simp [manifestKey_eq, setPrefix_eq, Path.join_cons]
  rw [← hkey, hfull, hkey, manifestKey_eq, setPrefix_eq]
  simp [ownDir, ownRoot, rootDir, trim, trimLeft, trimRight]

theorem prefixMatch_ownRoot (c n : ObjectName) (name : Str) :
    prefixMatch name (ownRoot [] c n) = true ↔ AtOrBelow (ownRoot [] c n) name := by
  have hlast : ¬ ['/'] <:+ ownRoot [] c n := by
    intro h
    obtain ⟨t, ht⟩ := h
    refine n.last (rootDir [] ++ (c.val ++ ['/'])) ?_
    have heq : rootDir [] ++ (c.val ++ ['/']) ++ n.val = t ++ ['/'] := by simp [ht, ownRoot]
    rw [heq, List.getLast?_concat]
  have htrim : trimSuffix (ownRoot [] c n) ['/'] = ownRoot [] c n := by
    simp [trimSuffix, hasSuffix, hlast]
  have hne : ownRoot [] c n ≠ [] := by simp [ownRoot]
  simp only [prefixMatch, htrim, if_neg hne, Bool.or_eq_true, beq_iff_eq, hasPrefix_iff, AtOrBelow]

/-- The filesystem backend lists a set's directory and nothing else, whatever
its root holds under canonical names. -/
theorem fsStore_listsDirectory (c n : ObjectName)
    (hcanon : ∀ k ∈ objects, (fsStore readSize).fullKey k = k) :
    ListsDirectory (fsStore readSize) c.val n.val objects where
  selects name _ := by
    rw [fsStore_setRoot, ← prefixMatch_ownRoot]
    change prefixMatch name (setPrefix c.val n.val) = true ↔ _
    rw [setPrefix_eq]
    rfl
  leadsBack name hname _ := hcanon name hname

/-- With a listing that stops at directory boundaries the same cleanup is
confined to the set, whatever else the store holds under canonical names. -/
theorem runCleanup_fs_frame (c n : ObjectName)
    (objects : Objects)
    (hcanon : ∀ k ∈ objects, (fsStore readSize).fullKey k = k) {name : Str}
    (hdir : ¬ ownDir [] c n <+: name) (hroot : name ≠ ownRoot [] c n) (script : List Reply) :
    ((runCleanup ⟨c.val, n.val, some (fsStore readSize).toStore⟩).after
      ⟨objects, script⟩).objects.lookup name = objects.lookup name := by
  have hlist := fsStore_listsDirectory readSize c n hcanon
  refine (runCleanup_frame (fsStore readSize) objects name ?_ ?_ ⟨objects, script⟩
    ⟨fun _ hk => hk, rfl⟩).1.2
  · rw [fsStore_manifest]
    rintro rfl
    exact hdir (List.prefix_append _ _)
  · intro k hk hsel
    have hbelow := (hlist.selects k hk).mp hsel
    rw [hlist.leadsBack k hk hbelow]
    rw [fsStore_setRoot] at hbelow
    rintro rfl
    rcases hbelow with he | hp
    · exact hroot he
    · exact hdir hp

/-- A set whose name begins with that of the one cleaned up, and that one. -/
def twoSets : Objects :=
  ((∅ : Objects).insert (manifestKey "prod" "bk-2") []).insert
    (shardRDBKey "prod" "bk" 0) []

theorem runCleanup_fs_frame_begins :
    let cleaned := (runCleanup ⟨"prod", "bk", some (fsStore fun _ => 1).toStore⟩).after
      ⟨twoSets, []⟩
    cleaned.objects.lookup (manifestKey "prod" "bk-2") = some [] ∧
      (cleaned.objects.lookup (shardRDBKey "prod" "bk" 0)).isNone = true :=
  ⟨runCleanup_fs_frame _ ⟨"prod", by decide +kernel⟩ ⟨"bk", by decide +kernel⟩ twoSets
    (by decide +kernel) (by decide +kernel) (by decide +kernel) [], by decide +kernel⟩

end Filesystem

/-! ## Runs that stop halfway

A process that dies before a call is one whose call is refused, one that dies
after the call took effect is one whose reply is lost: either way the run ends
there. So a script of replies is a point at which a run stops. -/

section Stopped

variable (b : Backend) (c n : Str)

/-- Nothing is stored that was not there before. -/
def Within (before : Objects) (w : Bucket) : Prop :=
  ∀ k ∈ w.objects, k ∈ before

variable {b c n}

theorem ListsDirectory.within {before : Objects} {w : Bucket}
    (h : ListsDirectory b c n before) (hw : Within before w) : ListsDirectory b c n w.objects :=
  ⟨fun name hname => h.selects name (hw name hname),
    fun name hname => h.leadsBack name (hw name hname)⟩

theorem Within.erase {before : Objects} {w : Bucket}
    (h : Within before w) (key : Str) : Within before (w.erase key) :=
  fun k hk => h k (AList.mem_erase.mp hk).2

variable (b c n)

theorem delete_within (before : Objects) (key : Str) :
    Action.Keeps (Within before) (b.delete key) fun _ => True := by
  intro w hw
  refine ⟨?_, fun _ _ => trivial⟩
  unfold Action.after Backend.delete
  cases w.reply with
  | ok => exact hw.erase _
  | refused m => exact hw
  | lost m => exact hw.erase _

theorem list_within (before : Objects) (pfx : Str) :
    Action.Keeps (Within before) (b.list pfx) fun _ => True := by
  intro w hw
  refine ⟨?_, fun _ _ => trivial⟩
  unfold Action.after Backend.list
  cases w.reply <;> exact hw

/-- What a run does once the manifest is deleted. -/
def sweep (setRoot : Str) : Action Bucket Unit := do
  let keys ← Action.mapErr (Err.wrap ("list set " ++ quote setRoot)) (b.list setRoot)
  keys.forM fun key =>
    Action.mapErr (Err.wrap ("delete " ++ quote key)) (b.delete key)
  let remaining ← Action.mapErr
    (Err.wrap ("verify set " ++ quote setRoot ++ " empty")) (b.list setRoot)
  if remaining.length ≠ 0 then throw (notFullyRemoved setRoot remaining)

theorem runCleanup_eq_sweep : runCleanup ⟨c, n, some b.toStore⟩ =
    (Action.mapErr (Err.wrap "delete manifest") (b.delete (manifestKey c n)) >>=
      fun _ => sweep b (setPrefix c n)) := rfl

theorem sweep_within (before : Objects) (setRoot : Str) :
    Action.Keeps (Within before) (sweep b setRoot) fun _ => True := by
  refine (list_within b before _).mapErr.bind fun keys _ => ?_
  refine (Action.Keeps.forM fun key _ => (delete_within b before key).mapErr).bind fun _ _ => ?_
  refine (list_within b before _).mapErr.bind fun remaining _ => ?_
  split
  · exact Action.Keeps.throw _
  · exact Action.Keeps.pure trivial

/-- The objects a run leaves that stops where `script` says. -/
def stopped (objects : Objects) (script : List Reply) : Objects :=
  ((runCleanup ⟨c, n, some b.toStore⟩).after ⟨objects, script⟩).objects

theorem stopped_within (objects : Objects) (script : List Reply) :
    ∀ k ∈ stopped b c n objects script, k ∈ objects := by
  have hkeeps : Action.Keeps (Within objects) (runCleanup ⟨c, n, some b.toStore⟩) fun _ => True := by
    rw [runCleanup_eq_sweep]
    exact (delete_within b objects _).mapErr.bind fun _ _ => sweep_within b objects _
  exact hkeeps.after (w := ⟨objects, script⟩) fun _ hk => hk

theorem ListsDirectory.stopped (h : ListsDirectory b c n objects) (script : List Reply) :
    ListsDirectory b c n (stopped b c n objects script) :=
  h.within (w := ⟨_, []⟩) (stopped_within b c n objects script)

theorem ListsDirectory.stoppedAll (h : ListsDirectory b c n objects) (scripts : List (List Reply)) :
    ListsDirectory b c n (scripts.foldl (Backup.stopped b c n) objects) := by
  induction scripts generalizing objects with
  | nil => exact h
  | cons script scripts ih => exact ih (h.stopped b c n script)

/-- The manifest goes first: where it is still there, the run has stopped
before it did anything. -/
theorem stopped_of_manifest {script : List Reply}
    (hthere : b.fullKey (manifestKey c n) ∈ stopped b c n objects script) :
    stopped b c n objects script = objects := by
  have hgone : ∀ w : Bucket, Within (objects.erase (b.fullKey (manifestKey c n))) w →
      b.fullKey (manifestKey c n) ∉ w.objects :=
    fun w hw hmem => (AList.mem_erase.mp (hw _ hmem)).1 rfl
  unfold stopped at hthere ⊢
  rw [runCleanup_eq_sweep] at hthere ⊢
  cases hreply : (⟨objects, script⟩ : Bucket).reply with
  | ok =>
    have hdelete : Action.Returns (b.delete (manifestKey c n)) ⟨objects, script⟩ ()
        ⟨objects.erase (b.fullKey (manifestKey c n)), script.tail⟩ := by
      simp [Action.Returns, Backend.delete, hreply, Bucket.called, Bucket.erase]
    rw [(hdelete.under_mapErr _).after_bind] at hthere
    refine absurd hthere (hgone _ ((sweep_within b _ (setPrefix c n)).after ?_))
    exact fun _ hk => hk
  | refused m =>
    have hdelete : b.delete (manifestKey c n) ⟨objects, script⟩ =
        .error (b.failure "delete" (manifestKey c n) m) ⟨objects, script.tail⟩ := by
      simp [Backend.delete, hreply, Bucket.called]
    rw [Action.after_bind_error (Action.mapErr_error hdelete _) _]
  | lost m =>
    have hdelete : b.delete (manifestKey c n) ⟨objects, script⟩ =
        .error (b.failure "delete" (manifestKey c n) m)
          ⟨objects.erase (b.fullKey (manifestKey c n)), script.tail⟩ := by
      simp [Backend.delete, hreply, Bucket.called, Bucket.erase]
    rw [Action.after_bind_error (Action.mapErr_error hdelete _) _] at hthere
    exact absurd hthere (hgone _ fun _ hk => hk)

/-- With a listing that stops at directory boundaries, a run whose calls all go
through finds nothing left of the set in its second listing. -/
theorem runCleanup_returns (hlist : ListsDirectory b c n objects) :
    ∃ final, Action.Returns (runCleanup ⟨c, n, some b.toStore⟩) ⟨objects, []⟩ () ⟨final, []⟩ ∧
      b.fullKey (manifestKey c n) ∉ final ∧
      ∀ name ∈ final, ¬ AtOrBelow (b.fullKey (setPrefix c n)) name := by
  let rest := objects.erase (b.fullKey (manifestKey c n))
  let keys := (b.listed ⟨rest, []⟩ (setPrefix c n)).map b.stripPrefix
  have hsub : ∀ name ∈ eraseAll b rest keys, name ∈ rest := fun name hname => by
    by_contra hnot
    have hnone := lookup_eraseAll_of_none b (AList.lookup_eq_none.mpr hnot) keys
    exact AList.lookup_eq_none.mp hnone hname
  have hrest : ListsDirectory b c n rest := hlist.within (w := ⟨rest, []⟩) fun name hname =>
    (AList.mem_erase.mp hname).2
  have hempty : ∀ name ∈ eraseAll b rest keys, ¬ AtOrBelow (b.fullKey (setPrefix c n)) name := by
    intro name hname hbelow
    have hmem := hsub name hname
    have hlisted : name ∈ b.listed ⟨rest, []⟩ (setPrefix c n) :=
      List.mem_filter.mpr ⟨AList.mem_keys.mp hmem, (hrest.selects name hmem).mpr hbelow⟩
    have hnone := lookup_eraseAll_of_mem b rest (hrest.leadsBack name hmem hbelow)
      (List.mem_map_of_mem hlisted)
    exact AList.lookup_eq_none.mp hnone hname
  have hremaining : b.listed ⟨eraseAll b rest keys, []⟩ (setPrefix c n) = [] := by
    refine List.filter_eq_nil_iff.mpr fun name hname hsel => ?_
    have hmem := AList.mem_keys.mpr hname
    exact hempty name hmem ((hrest.selects name (hsub name hmem)).mp hsel)
  have hdelete : Action.Returns (b.delete (manifestKey c n)) ⟨objects, []⟩ () ⟨rest, []⟩ := rfl
  have hlists (o : Objects) : Action.Returns (b.list (setPrefix c n))
      ⟨o, []⟩ ((b.listed ⟨o, []⟩ (setPrefix c n)).map b.stripPrefix) ⟨o, []⟩ := rfl
  refine ⟨eraseAll b rest keys, ?_, fun hmem => (AList.mem_erase.mp (hsub _ hmem)).1 rfl, hempty⟩
  rw [runCleanup_eq_sweep]
  refine (hdelete.under_mapErr _).then (((hlists rest).under_mapErr _).then ?_)
  refine (forM_delete_returns b _ rest keys).then (((hlists _).under_mapErr _).then ?_)
  rw [hremaining]
  rfl

/-- Any number of cleanups of one set, each stopped anywhere: as long as the
manifest is there, nothing was removed, and once a run is let through, nothing
of the set is left. -/
theorem runCleanup_crash_safe {objects : Objects}
    (hlist : ListsDirectory b c n objects) (scripts : List (List Reply)) :
    (b.fullKey (manifestKey c n) ∈ scripts.foldl (stopped b c n) objects →
      scripts.foldl (stopped b c n) objects = objects) ∧
    ∃ final, Action.Returns (runCleanup ⟨c, n, some b.toStore⟩)
        ⟨scripts.foldl (stopped b c n) objects, []⟩ () ⟨final, []⟩ ∧
      b.fullKey (manifestKey c n) ∉ final ∧
      ∀ name ∈ final, ¬ AtOrBelow (b.fullKey (setPrefix c n)) name := by
  refine ⟨?_, runCleanup_returns b c n (hlist.stoppedAll b c n scripts)⟩
  induction scripts generalizing objects with
  | nil => exact fun _ => rfl
  | cons script scripts ih =>
    intro hthere
    have hrest := ih (hlist.stopped b c n script) hthere
    have hfirst := stopped_of_manifest b c n (hrest ▸ hthere)
    exact hrest.trans hfirst

end Stopped

/-- A run killed once the dump is gone too, and the one that follows it. -/
theorem runCleanup_crash_safe_killed :
    let store := fsStore fun _ => 0
    let objects : Objects :=
      [⟨"prod/bk-1/manifest.json", "1"⟩,
        ⟨"prod/bk-1/shard-0/dump.rdb", "0"⟩,
        ⟨"prod/bk-10/manifest.json", "10"⟩].toAList
    let left := stopped store "prod" "bk-1" objects [.ok, .ok, .lost "killed"]
    ListsDirectory store "prod" "bk-1" objects ∧
      (store.fullKey (manifestKey "prod" "bk-1") ∈ left → left = objects) ∧
      ∃ final, Action.Returns (runCleanup ⟨"prod", "bk-1", some store.toStore⟩)
          ⟨left, []⟩ () ⟨final, []⟩ ∧
        store.fullKey (manifestKey "prod" "bk-1") ∉ final ∧
        ∀ name ∈ final, ¬ AtOrBelow (store.fullKey (setPrefix "prod" "bk-1")) name := by
  intro store objects left
  have hlist : ListsDirectory store "prod" "bk-1" objects :=
    fsStore_listsDirectory _ ⟨"prod", by decide⟩ ⟨"bk-1", by decide⟩ (by decide +kernel)
  exact ⟨hlist, runCleanup_crash_safe store _ _ hlist [[.ok, .ok, .lost "killed"]]⟩

end ValkeyOperator.Backup

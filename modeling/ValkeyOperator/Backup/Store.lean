import Mathlib.Data.List.AList
import ValkeyOperator.Lib.Action
import ValkeyOperator.Lib.Stream
import ValkeyOperator.Backup.Keys

/-! Artifact stores (`pkg/backup/store.go`, `s3.go`, `gcs.go`, `azure.go`,
`filesystem.go`).

The world of a store is the bucket's objects and a script of replies, one per
call of the backend's client library: a call goes through, is refused without
effect, or takes effect and still reports an error. The four backends differ in
how a key becomes an object name, in what a list call selects and in how a
listed name becomes a key again. -/

namespace ValkeyOperator.Backup
open Text ValkeyOperator.Stream

inductive Reply where
  | ok
  | refused (msg : Str)
  | lost (msg : Str)
deriving DecidableEq

abbrev Objects := AList fun _ : Str => Bytes

structure Bucket where
  objects : Objects
  script : List Reply

/-- The reply to the next call; once the script is over every call goes through. -/
def Bucket.reply (w : Bucket) : Reply := w.script.headD .ok

def Bucket.called (w : Bucket) : Bucket := { w with script := w.script.tail }

def Bucket.store (w : Bucket) (name : Str) (bs : Bytes) : Bucket :=
  { w with objects := w.objects.insert name bs }

def Bucket.erase (w : Bucket) (name : Str) : Bucket :=
  { w with objects := w.objects.erase name }

/-- `ArtifactStore`, the part the backup Job's modes use. `put` reads the whole
stream and returns the state it left the stream in. -/
structure ArtifactStore (W : Type) where
  put : {σ : Type} → Str → Reader σ → σ → Int → Action W σ
  list : Str → Action W (List Str)
  delete : Str → Action W Unit

/-- What sets one backend apart from another. -/
structure Backend where
  label : Str
  /-- the object name a store-relative key is kept under -/
  fullKey : Str → Str
  /-- what the list call is asked for, given a store-relative prefix -/
  listPrefix : Str → Str
  /-- whether an object name is listed for what was asked -/
  selects : Str → Str → Bool
  /-- the store-relative key reported for a listed object name -/
  stripPrefix : Str → Str
  /-- what a failed read of the stream and a failed commit are reported as -/
  readOp : Str
  commitOp : Str
  /-- buffer sizes the client library reads an upload with -/
  readSize : Nat → Nat

namespace Backend

variable (b : Backend)

/-- `<label>: <op> "<key>": <cause>` -/
def failure (op key cause : Str) : Err :=
  { msg := b.label ++ ": " ++ op ++ " " ++ quote key ++ ": " ++ cause }

/-- Upload what the stream yields until it ends. The announced size is ignored;
a stream that fails leaves no object unless the client library commits what it
got so far. -/
def put {σ : Type} (key : Str) (R : Reader σ) (s : σ) (_size : Int) : Action Bucket σ := fun w =>
  match drain R b.readSize s with
  | none => .error (b.failure b.readOp key "no progress") w
  | some ((bs, .eof), s') =>
    match w.reply with
    | .ok => .ok s' (w.called.store (b.fullKey key) bs)
    | .refused m => .error (b.failure b.commitOp key m) w.called
    | .lost m => .error (b.failure b.commitOp key m) (w.called.store (b.fullKey key) bs)
  | some ((bs, .failed e), _) =>
    match w.reply with
    | .lost _ => .error (b.failure b.readOp key e) (w.called.store (b.fullKey key) bs)
    | _ => .error (b.failure b.readOp key e) w.called

/-- The object names a list call for `pfx` returns. -/
def listed (w : Bucket) (pfx : Str) : List Str :=
  w.objects.keys.filter fun name => b.selects name (b.listPrefix pfx)

def list (pfx : Str) : Action Bucket (List Str) := fun w =>
  match w.reply with
  | .ok => .ok ((b.listed w pfx).map b.stripPrefix) w.called
  | .refused m | .lost m => .error (b.failure "list" pfx m) w.called

/-- Deleting an absent object succeeds. -/
def delete (key : Str) : Action Bucket Unit := fun w =>
  match w.reply with
  | .ok => .ok () (w.called.erase (b.fullKey key))
  | .refused m => .error (b.failure "delete" key m) w.called
  | .lost m => .error (b.failure "delete" key m) (w.called.erase (b.fullKey key))

variable {σ : Type} {R : Reader σ} {s s' : σ} {key : Str} {n : Int} {w w' : Bucket}

/-- An upload that returns has read the stream to a clean end of file and stored
all of it. -/
theorem put_returns (h : Action.Returns (b.put key R s n) w s' w') :
    drain R b.readSize s = some ((R.content s, .eof), s') ∧
      w' = w.called.store (b.fullKey key) (R.content s) := by
  obtain ⟨t, ht⟩ := drain_spec R b.readSize s
  unfold Action.Returns put at h
  rw [ht] at h
  cases he : R.ending s with
  | eof =>
    rw [he] at ht h
    cases hr : w.reply with
    | ok =>
      simp only [hr, EStateM.Result.ok.injEq] at h
      exact ⟨h.1 ▸ ht, h.2.symm⟩
    | refused m => simp [hr] at h
    | lost m => simp [hr] at h
  | failed m =>
    rw [he] at h
    cases hr : w.reply <;> simp [hr] at h

/-- An upload that fails has stored what the stream yielded, or nothing. -/
theorem put_fails {e : Err} (h : b.put key R s n w = .error e w') :
    w'.objects = w.objects.insert (b.fullKey key) (R.content s) ∨ w'.objects = w.objects := by
  obtain ⟨t, ht⟩ := drain_spec R b.readSize s
  unfold put at h
  rw [ht] at h
  cases he : R.ending s with
  | eof =>
    rw [he] at h
    cases hr : w.reply with
    | ok => simp [hr] at h
    | refused m =>
      simp only [hr, EStateM.Result.error.injEq] at h
      exact .inr (by rw [← h.2]; rfl)
    | lost m =>
      simp only [hr, EStateM.Result.error.injEq] at h
      exact .inl (by rw [← h.2]; rfl)
  | failed m =>
    rw [he] at h
    cases hr : w.reply with
    | lost m' =>
      simp only [hr, EStateM.Result.error.injEq] at h
      exact .inl (by rw [← h.2]; rfl)
    | ok =>
      simp only [hr, EStateM.Result.error.injEq] at h
      exact .inr (by rw [← h.2]; rfl)
    | refused m' =>
      simp only [hr, EStateM.Result.error.injEq] at h
      exact .inr (by rw [← h.2]; rfl)

theorem put_ok (key : Str) (n : Int) (he : R.ending s = .eof) (hw : w.reply = .ok) :
    ∃ s', Action.Returns (b.put key R s n) w s' (w.called.store (b.fullKey key) (R.content s)) := by
  obtain ⟨t, ht⟩ := drain_spec R b.readSize s
  exact ⟨t, by simp [Action.Returns, put, ht, he, hw]⟩

def toStore : ArtifactStore Bucket := ⟨fun key R s n => b.put key R s n, b.list, b.delete⟩

end Backend

/-! ## The backends -/

/-- The three object stores root keys under a configured prefix and list by
plain string prefix; they differ in their label, in what they strip and in how
they report a failed commit. -/
def cloudBackend (label root stripped commitOp : Str) (readSize : Nat → Nat) : Backend where
  label := label
  fullKey key := joinKey [root, key]
  listPrefix key := joinKey [root, key]
  selects := hasPrefix
  stripPrefix name := if root = [] then name else trimPrefix name stripped
  readOp := "put"
  commitOp := commitOp
  readSize := readSize

def s3Store (root : Str) (readSize : Nat → Nat) : Backend :=
  cloudBackend "s3 backend" root (trimPrefix (trim '/' root ++ ['/']) ['/']) "put" readSize

def gcsStore (root : Str) (readSize : Nat → Nat) : Backend :=
  cloudBackend "gcs backend" root (trim '/' root ++ ['/']) "finalize" readSize

def azureStore (root : Str) (readSize : Nat → Nat) : Backend :=
  cloudBackend "azure backend" root (trim '/' root ++ ['/']) "put" readSize

inductive CloudKind where
  | s3
  | gcs
  | azure
deriving DecidableEq

def cloudStore : CloudKind → Str → (Nat → Nat) → Backend
  | .s3 => s3Store
  | .gcs => gcsStore
  | .azure => azureStore

/-- Whether `key` is `pfx` or lies in the directory `pfx`. -/
def prefixMatch (key pfx : Str) : Bool :=
  if pfx = [] then true
  else
    let trimmed := trimSuffix pfx ['/']
    key == trimmed || hasPrefix key (trimmed ++ ['/'])

/-- The filesystem backend, object names being paths relative to its root: keys
are cleaned as rooted paths, and listing respects directory boundaries. -/
def fsStore (readSize : Nat → Nat) : Backend where
  label := "filesystem backend"
  fullKey key := (Path.clean ('/' :: key)).drop 1
  listPrefix := id
  selects := prefixMatch
  stripPrefix := id
  readOp := "write"
  commitOp := "rename"
  readSize := readSize

/-! ## Names and keys of the cloud stores -/

/-- The extra cut of the S3 store finds nothing to cut. -/
theorem s3_stripped {root : Str} (h : trim '/' root ≠ []) :
    trimPrefix (trim '/' root ++ ['/']) ['/'] = trim '/' root ++ ['/'] := by
  obtain ⟨a, rest, htrim⟩ := List.exists_cons_of_ne_nil h
  have ha : a ≠ '/' := by
    rintro rfl
    exact trim_head? '/' root (by rw [htrim]; rfl)
  refine trimPrefix_of_not fun hslash => ha ?_
  obtain ⟨u, hu⟩ := hslash
  rw [htrim] at hu
  exact (List.cons.inj hu).1.symm

/-- Under a prefix all three object stores strip the directory of the prefix. -/
theorem cloudStore_stripPrefix_eq (kind : CloudKind) {root : Str} (readSize : Nat → Nat)
    (h : trim '/' root ≠ []) (name : Str) :
    (cloudStore kind root readSize).stripPrefix name = trimPrefix name (rootDir root) := by
  have hroot : root ≠ [] := by
    rintro rfl
    exact h rfl
  have hdir : rootDir root = trim '/' root ++ ['/'] := if_neg h
  cases kind <;>
    simp [cloudStore, s3Store, gcsStore, azureStore, cloudBackend, hroot, hdir, s3_stripped h]

/-- Without one they leave a name alone. -/
theorem cloudStore_stripPrefix_rootless (kind : CloudKind) {root : Str} (readSize : Nat → Nat)
    (h : trim '/' root = []) {name : Str} (hname : name.head? ≠ some '/') :
    (cloudStore kind root readSize).stripPrefix name = name := by
  have hslash : ¬ ['/'] <+: name := by
    rintro ⟨u, rfl⟩
    exact hname rfl
  by_cases hroot : root = []
  · subst hroot
    cases kind <;> rfl
  · cases kind <;>
      simp [cloudStore, s3Store, gcsStore, azureStore, cloudBackend, hroot, h, trimPrefix,
        hasPrefix_iff, hslash]

/-- A listed name is turned back into the key it was stored under, on all three
object stores and for every configured prefix. -/
theorem cloudStore_stripPrefix (kind : CloudKind) (root : Str) (readSize : Nat → Nat) {a : Char}
    (ha : a ≠ '/') (t : Str) :
    (cloudStore kind root readSize).stripPrefix (rootDir root ++ a :: t) = a :: t := by
  by_cases htrim : trim '/' root = []
  · have hdir : rootDir root = [] := if_pos htrim
    rw [hdir, List.nil_append]
    exact cloudStore_stripPrefix_rootless kind readSize htrim fun h => ha (Option.some.inj h)
  · rw [cloudStore_stripPrefix_eq kind readSize htrim, trimPrefix_append]

theorem cloudStore_fullKey (kind : CloudKind) (root : Str) (readSize : Nat → Nat) (key : Str) :
    (cloudStore kind root readSize).fullKey key = joinKey [root, key] := by
  cases kind <;> rfl

theorem cloudStore_listPrefix (kind : CloudKind) (root : Str) (readSize : Nat → Nat) (key : Str) :
    (cloudStore kind root readSize).listPrefix key = joinKey [root, key] := by
  cases kind <;> rfl

theorem cloudStore_selects (kind : CloudKind) (root : Str) (readSize : Nat → Nat)
    (name pfx : Str) : (cloudStore kind root readSize).selects name pfx = true ↔ pfx <+: name := by
  cases kind <;> exact hasPrefix_iff

end ValkeyOperator.Backup

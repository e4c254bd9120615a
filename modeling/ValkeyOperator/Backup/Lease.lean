import ValkeyOperator.Lib.Calls
import ValkeyOperator.Lib.Versioned
import ValkeyOperator.Backup.Types

/-! The per-cluster backup lock (`perconavalkeybackup/lease.go`).

The lock is one Lease object. A backup takes it over when it is free or expired,
renews it while its Job runs and clears it at the end. Taking over and renewing are
updates that carry the version read, but clearing is a merge patch without one: it
goes through whatever has become of the lease since. Backups run side by side, one
call at a time; a release clears its own lease for as long as its patch arrives
before the lease it read has expired, because nobody takes over a lease earlier. -/

namespace ValkeyOperator.Backup
open Text Api

variable {lease : Lease} {version : Nat} {cluster holder : Str}

/-! ## The Lease and its calls -/

/-- Times are microseconds, the resolution a Lease is stored with. -/
structure Lease where
  holderIdentity : Option Str := none
  leaseDurationSeconds : Option Int := none
  acquireTime : Option Int := none
  renewTime : Option Int := none
deriving DecidableEq

def leaseDurationSeconds : Int := 30

def second : Int := 1000000

def leaseName (cluster : Str) : Str := "valkey-" ++ cluster ++ "-backup-lock"

def leaseHolderID (bk : PerconaValkeyBackup) : Str :=
  "backup/" ++ bk.ns ++ '/' :: bk.name

inductive LeaseReq where
  | now
  | get
  | create (lease : Lease)
  | update (lease : Lease) (version : Nat)
  /-- the merge patch from `base` to `modified` -/
  | patch (base modified : Lease)

/-- A lookup that finds nothing answers `none`. -/
abbrev LeaseResp : LeaseReq → Type
  | .now => Int
  | .get => Except Err (Option (Lease × Nat))
  | .create _ | .update _ _ | .patch _ _ => WriteReply

abbrev LeaseCalls := Calls LeaseReq LeaseResp

/-- The error a write reports, if it does. -/
def writeErr : WriteReply → Option Err
  | .ok => none
  | .alreadyExists => some { msg := "already exists" }
  | .conflict => some { msg := "the object has been modified" }
  | .notFound => some { msg := "not found" }
  | .failed e => some e

/-- Whether a valid holder has the lease, and whether that holder is `holder`. -/
def leaseHeldByOther (lease : Lease) (holder : Str) (nowTime : Int) : Bool × Bool :=
  match lease.holderIdentity, lease.renewTime with
  | some id, some renewTime =>
    if id = [] then (false, false)
    else
      let expiry := renewTime + lease.leaseDurationSeconds.getD leaseDurationSeconds * second
      if nowTime < expiry then (true, id == holder) else (false, false)
  | _, _ => (false, false)

def createLease (name holder : Str) (nowTime : Int) : LeaseCalls (Except Err Bool) := do
  let reply ← Calls.ask (.create {
    holderIdentity := some holder
    leaseDurationSeconds := some leaseDurationSeconds
    acquireTime := some nowTime
    renewTime := some nowTime })
  match (reply : WriteReply) with
  | .alreadyExists => pure (.ok false)
  | reply =>
    match writeErr reply with
    | some e => pure (.error (e.wrap ("create backup lease " ++ quote name)))
    | none => pure (.ok true)

/-- The lease claimed or renewed for `holder`. -/
def renewedLease (lease : Lease) (holder : Str) (nowTime : Int) : Lease :=
  let reclaiming := lease.holderIdentity ≠ some holder
  { holderIdentity := some holder
    leaseDurationSeconds := some leaseDurationSeconds
    acquireTime :=
      if reclaiming ∨ lease.acquireTime = none then some nowTime else lease.acquireTime
    renewTime := some nowTime }

def renewLeaseObject (name : Str) (lease : Lease) (version : Nat) (holder : Str) (nowTime : Int) :
    LeaseCalls (Except Err Bool) := do
  let reply ← Calls.ask (.update (renewedLease lease holder nowTime) version)
  match (reply : WriteReply) with
  | .conflict => pure (.ok false)
  | reply =>
    match writeErr reply with
    | some e => pure (.error (e.wrap ("renew backup lease " ++ quote name)))
    | none => pure (.ok true)

def acquireClusterLease (bk : PerconaValkeyBackup) : LeaseCalls (Except Err Bool) := do
  let name := leaseName bk.spec.clusterName
  let holder := leaseHolderID bk
  let nowTime ← Calls.ask .now
  let got ← Calls.ask .get
  match (got : Except Err (Option (Lease × Nat))) with
  | .ok none => createLease name holder nowTime
  | .error e => pure (.error (e.wrap ("get backup lease " ++ quote name)))
  | .ok (some (lease, version)) =>
    if (leaseHeldByOther lease holder nowTime).1 && !(leaseHeldByOther lease holder nowTime).2 then
      pure (.ok false)
    else renewLeaseObject name lease version holder nowTime

def renewClusterLease (bk : PerconaValkeyBackup) : LeaseCalls (Except Err Unit) := do
  let name := leaseName bk.spec.clusterName
  let holder := leaseHolderID bk
  let got ← Calls.ask .get
  match (got : Except Err (Option (Lease × Nat))) with
  | .ok none => pure (.ok ())
  | .error e =>
    pure (.error (e.wrap ("get backup lease " ++ quote name ++ " for renew")))
  | .ok (some (lease, version)) =>
    if lease.holderIdentity ≠ some holder then pure (.ok ())
    else do
      let nowTime ← Calls.ask .now
      let renewed ← renewLeaseObject name lease version holder nowTime
      pure (renewed.map fun _ => ())

/-- The lease without holder and times. -/
def clearedLease (lease : Lease) : Lease :=
  { lease with holderIdentity := none, renewTime := none, acquireTime := none }

def releaseClusterLease (bk : PerconaValkeyBackup) : LeaseCalls (Except Err Unit) := do
  let name := leaseName bk.spec.clusterName
  let holder := leaseHolderID bk
  let got ← Calls.ask .get
  match (got : Except Err (Option (Lease × Nat))) with
  | .ok none => pure (.ok ())
  | .error e =>
    pure (.error (e.wrap ("get backup lease " ++ quote name ++ " for release")))
  | .ok (some (lease, _)) =>
    if lease.holderIdentity ≠ some holder then pure (.ok ())
    else do
      let reply ← Calls.ask (.patch lease (clearedLease lease))
      match (reply : WriteReply) with
      | .conflict | .notFound => pure (.ok ())
      | reply =>
        match writeErr reply with
        | some e => pure (.error (e.wrap ("release backup lease " ++ quote name)))
        | none => pure (.ok ())

def isBackupRunning (cluster : Str) (nowTime : Int) : LeaseCalls (Except Err Bool) := do
  let got ← Calls.ask .get
  match (got : Except Err (Option (Lease × Nat))) with
  | .ok none => pure (.ok false)
  | .error e =>
    pure (.error (e.wrap ("get backup lease for cluster " ++ quote cluster)))
  | .ok (some (lease, _)) => pure (.ok (leaseHeldByOther lease [] nowTime).1)

def healthText : ClusterHealth → Str
  | .initializing => "Initializing"
  | .reconciling => "Reconciling"
  | .ready => "Ready"
  | .degraded => "Degraded"
  | .failed => "Failed"

/-- Why the source cluster, as it was read, is not fit for a snapshot; none when it
is. Only the recorded state counts. -/
def clusterSnapshotReady (clusterName : Str) (got : Except Err (Option PerconaValkeyCluster)) :
    Except Err (Option Str) :=
  match got with
  | .error e =>
    .error (e.wrap ("get cluster " ++ quote clusterName ++ " for snapshot-readiness"))
  | .ok none => .ok (some "source cluster not found")
  | .ok (some cluster) =>
    if cluster.status.state ≠ .ready then
      .ok (some ("source cluster " ++ quote cluster.name ++ " is " ++
        quote (healthText cluster.status.state) ++ ", not Ready"))
    else .ok none

/-! ## The API server -/

structure LeaseWorld where
  clock : Int
  lease : Versioned Lease

/-- A merge patch sets the fields in which the two versions differ. -/
def mergePatch (base modified stored : Lease) : Lease where
  holderIdentity :=
    if base.holderIdentity = modified.holderIdentity then stored.holderIdentity
    else modified.holderIdentity
  leaseDurationSeconds :=
    if base.leaseDurationSeconds = modified.leaseDurationSeconds then stored.leaseDurationSeconds
    else modified.leaseDurationSeconds
  acquireTime :=
    if base.acquireTime = modified.acquireTime then stored.acquireTime else modified.acquireTime
  renewTime := if base.renewTime = modified.renewTime then stored.renewTime else modified.renewTime

/-- Carry out a write under a fault of the call. -/
def LeaseWorld.reply (w : LeaseWorld) (fault : Option Fault) (r : WriteReply × Versioned Lease) :
    WriteReply × LeaseWorld :=
  match fault with
  | none => (r.1, { w with lease := r.2 })
  | some (.refused e) => (.failed e, w)
  | some (.lost e) => (.failed e, { w with lease := r.2 })

def LeaseWorld.serve (w : LeaseWorld) (fault : Option Fault) :
    (r : LeaseReq) → LeaseResp r × LeaseWorld
  | .now => (w.clock, w)
  | .get =>
    match fault with
    | none => (.ok w.lease.object, w)
    | some (.refused e) | some (.lost e) => (.error e, w)
  | .create lease => w.reply fault (w.lease.create lease)
  | .update lease version => w.reply fault (w.lease.update lease version)
  | .patch base modified => w.reply fault (w.lease.patch (mergePatch base modified))

def LeaseWorld.write (w : LeaseWorld) (lease : Lease) : LeaseWorld :=
  { w with lease := w.lease.write lease }

theorem LeaseWorld.reply_world (w : LeaseWorld) (fault : Option Fault)
    (r : WriteReply × Versioned Lease) :
    (w.reply fault r).2 = w ∨ (w.reply fault r).2 = { w with lease := r.2 } := by
  unfold LeaseWorld.reply
  split
  · exact .inr rfl
  · exact .inl rfl
  · exact .inr rfl

theorem LeaseWorld.serve_create (w : LeaseWorld) (fault : Option Fault) (lease : Lease) :
    (w.serve fault (.create lease)).2 = w ∨
      w.lease.stored = none ∧ (w.serve fault (.create lease)).2 = w.write lease := by
  have hcreate := w.lease.create_cases lease
  rcases w.reply_world fault (w.lease.create lease) with h | h
  · exact .inl h
  · rcases hcreate with hc | ⟨hnone, hc⟩
    · exact .inl (by simp [LeaseWorld.serve, h, hc])
    · exact .inr ⟨hnone, by simp [LeaseWorld.serve, h, hc, LeaseWorld.write]⟩

theorem LeaseWorld.serve_update {w : LeaseWorld} {c : Lease} {v : Nat} (hseen : w.lease.Seen (c, v))
    (fault : Option Fault) (lease : Lease) :
    (w.serve fault (.update lease v)).2 = w ∨
      w.lease.stored = some c ∧ (w.serve fault (.update lease v)).2 = w.write lease := by
  have hupdate := hseen.update_cases lease
  rcases w.reply_world fault (w.lease.update lease v) with h | h
  · exact .inl h
  · rcases hupdate with hc | ⟨hstored, hc⟩
    · exact .inl (by simp [LeaseWorld.serve, h, hc])
    · exact .inr ⟨hstored, by simp [LeaseWorld.serve, h, hc, LeaseWorld.write]⟩

theorem LeaseWorld.serve_patch (w : LeaseWorld) (fault : Option Fault) (base modified : Lease) :
    (w.serve fault (.patch base modified)).2 = w ∨ ∃ c, w.lease.stored = some c ∧
      (w.serve fault (.patch base modified)).2 = w.write (mergePatch base modified c) := by
  have hpatch := w.lease.patch_cases (mergePatch base modified)
  rcases w.reply_world fault (w.lease.patch (mergePatch base modified)) with h | h
  · exact .inl h
  · rcases hpatch with hc | ⟨c, hstored, hc⟩
    · exact .inl (by simp [LeaseWorld.serve, h, hc])
    · exact .inr ⟨c, hstored, by simp [LeaseWorld.serve, h, hc, LeaseWorld.write]⟩

/-! ## Validity of a lease -/

/-- The lease has a holder and has not expired. -/
def held (lease : Lease) (nowTime : Int) : Bool := (leaseHeldByOther lease [] nowTime).1

@[simp] theorem leaseHeldByOther_fst (lease : Lease) (holder : Str) (nowTime : Int) :
    (leaseHeldByOther lease holder nowTime).1 = held lease nowTime := by
  unfold held leaseHeldByOther
  grind

theorem leaseHeldByOther_snd {nowTime : Int}
    (h : (leaseHeldByOther lease holder nowTime).2 = true) :
    lease.holderIdentity = some holder := by
  unfold leaseHeldByOther at h
  grind

theorem held_mono {t t' : Int} (h : held lease t = false) (ht : t ≤ t') :
    held lease t' = false := by
  unfold held leaseHeldByOther at h ⊢
  grind

/-- Asked for alone, the lock is what the stored lease says; an error of the read is
passed on. -/
theorem isBackupRunning_run (cluster : Str) (nowTime : Int) (fault : Option Fault)
    (w : LeaseWorld) :
    ((isBackupRunning cluster nowTime).run (fun w req => w.serve fault req) w).1 =
      match fault with
      | none => .ok ((w.lease.stored.map fun lease => held lease nowTime).getD false)
      | some (.refused e) | some (.lost e) =>
        .error (e.wrap ("get backup lease for cluster " ++ quote cluster)) := by
  rcases fault with _ | e | e
  · obtain ⟨clock, ⟨object, next, fresh⟩⟩ := w
    rcases object with _ | ⟨lease, version⟩
    · rfl
    · rfl
  · rfl
  · rfl

/-! ## An operation on its own -/

/-- An operation on the lock, its calls answered one after the other. -/
def LeaseWorld.perform {α : Type} (faults : LeaseReq → Option Fault) (lock : LeaseWorld)
    (program : LeaseCalls α) : α × LeaseWorld :=
  program.run (fun lock req => lock.serve (faults req) req) lock

/-- Nobody but the holder had a valid lease, and now the holder has one. -/
structure Claimed (holder : Str) (clock : Int) (before after : Versioned Lease) : Prop where
  free : ∀ l, before.stored = some l → held l clock = true → l.holderIdentity = some holder
  taken : ∃ l, after.stored = some l ∧ l.holderIdentity = some holder ∧ held l clock = true

/-- The lease is as before or claimed; if the operation reports success, it is
claimed. -/
structure Claims (holder : Str) (success : Prop) (before after : LeaseWorld) : Prop where
  clock : after.clock = before.clock
  lease : after.lease = before.lease ∨ Claimed holder before.clock before.lease after.lease
  success : success → Claimed holder before.clock before.lease after.lease

/-- The lease is as before, or it was the holder's own. -/
structure Clears (holder : Str) (before after : LeaseWorld) : Prop where
  clock : after.clock = before.clock
  lease : after.lease = before.lease ∨
    ∃ l, before.lease.stored = some l ∧ l.holderIdentity = some holder

theorem leaseHolderID_ne_nil (bk : PerconaValkeyBackup) : leaseHolderID bk ≠ [] :=
  List.append_ne_nil_of_right_ne_nil _ (List.cons_ne_nil _ _)

theorem held_fresh {clock : Int} (hholder : holder ≠ [])
    (hid : lease.holderIdentity = some holder) (hrenew : lease.renewTime = some clock)
    (hduration : lease.leaseDurationSeconds = some leaseDurationSeconds) :
    held lease clock = true := by
  have hvalid : clock < clock + leaseDurationSeconds * second := by
    unfold leaseDurationSeconds second
    omega
  unfold held leaseHeldByOther
  simp [hid, hrenew, hduration, hholder, hvalid]

section Alone

variable {lock : LeaseWorld}

theorem Claims.refl {success : Prop} (h : ¬ success) : Claims holder success lock lock :=
  ⟨rfl, .inl rfl, fun hs => absurd hs h⟩

theorem Claims.write {success : Prop}
    (hfree : ∀ l, lock.lease.stored = some l → held l lock.clock = true →
      l.holderIdentity = some holder) (hid : lease.holderIdentity = some holder)
    (hheld : held lease lock.clock = true) : Claims holder success lock (lock.write lease) :=
  have hclaimed : Claimed holder lock.clock lock.lease (lock.write lease).lease :=
    ⟨hfree, lease, Versioned.stored_write _ _, hid, hheld⟩
  ⟨rfl, .inr hclaimed, fun _ => hclaimed⟩

/-- How a write that the server accepts is answered: it is made, refused, or made
and reported as failed. -/
theorem LeaseWorld.reply_cases (lock : LeaseWorld) (fault : Option Fault)
    (lease : Versioned Lease) :
    lock.reply fault (.ok, lease) = (.ok, { lock with lease := lease }) ∨
      ∃ e, lock.reply fault (.ok, lease) = (.failed e, lock) ∨
        lock.reply fault (.ok, lease) = (.failed e, { lock with lease := lease }) := by
  rcases fault with _ | e | e
  · exact .inl rfl
  · exact .inr ⟨e, .inl rfl⟩
  · exact .inr ⟨e, .inr rfl⟩

theorem createLease_claims (faults : LeaseReq → Option Fault) {name : Str} (hholder : holder ≠ [])
    (hnone : lock.lease.object = none) :
    Claims holder ((lock.perform faults (createLease name holder lock.clock)).1 = .ok true) lock
      (lock.perform faults (createLease name holder lock.clock)).2 := by
  have hfree : ∀ l, lock.lease.stored = some l → held l lock.clock = true →
      l.holderIdentity = some holder := by
    intro l hl
    simp [Versioned.stored, hnone] at hl
  have hserve : ∀ lease, lock.serve (faults (.create lease)) (.create lease) =
      lock.reply (faults (.create lease)) (.ok, lock.lease.write lease) := by
    intro lease
    simp [LeaseWorld.serve, Versioned.create, hnone]
  unfold LeaseWorld.perform createLease
  simp only [bind, Calls.ask, Calls.bind, Calls.run, hserve]
  rcases lock.reply_cases _ _ with h | ⟨e, h | h⟩ <;> rw [h]
  · exact .write hfree rfl (held_fresh hholder rfl rfl rfl)
  · exact .refl (by simp [Calls.run, writeErr, pure])
  · exact .write hfree rfl (held_fresh hholder rfl rfl rfl)

theorem renewLeaseObject_claims (faults : LeaseReq → Option Fault) (name : Str)
    (hholder : holder ≠ []) (hread : lock.lease.object = some (lease, version))
    (hfree : held lease lock.clock = true → lease.holderIdentity = some holder) :
    Claims holder
      ((lock.perform faults (renewLeaseObject name lease version holder lock.clock)).1 = .ok true)
      lock (lock.perform faults (renewLeaseObject name lease version holder lock.clock)).2 := by
  have hstored : ∀ l, lock.lease.stored = some l → held l lock.clock = true →
      l.holderIdentity = some holder := by
    intro l hl
    simp only [Versioned.stored, hread, Option.map_some, Option.some.injEq] at hl
    exact hl ▸ hfree
  have hserve : ∀ l, lock.serve (faults (.update l version)) (.update l version) =
      lock.reply (faults (.update l version)) (.ok, lock.lease.write l) := by
    intro l
    simp [LeaseWorld.serve, Versioned.update, hread]
  unfold LeaseWorld.perform renewLeaseObject
  simp only [bind, Calls.ask, Calls.bind, Calls.run, hserve]
  rcases lock.reply_cases _ _ with h | ⟨e, h | h⟩ <;> rw [h]
  · exact .write hstored rfl (held_fresh hholder rfl rfl rfl)
  · exact .refl (by simp [Calls.run, writeErr, pure])
  · exact .write hstored rfl (held_fresh hholder rfl rfl rfl)

/-- Alone, a backup takes the lock only if nobody else has a valid one. -/
theorem acquireClusterLease_claims (faults : LeaseReq → Option Fault) (bk : PerconaValkeyBackup) :
    Claims (leaseHolderID bk) ((lock.perform faults (acquireClusterLease bk)).1 = .ok true) lock
      (lock.perform faults (acquireClusterLease bk)).2 := by
  have hholder := leaseHolderID_ne_nil bk
  unfold LeaseWorld.perform acquireClusterLease
  simp only [bind, Calls.ask, Calls.bind, Calls.run, LeaseWorld.serve]
  rcases faults .get with _ | e | e
  · cases hobject : lock.lease.object with
    | none => exact createLease_claims faults hholder hobject
    | some copy =>
      obtain ⟨lease, version⟩ := copy
      dsimp only
      split
      · exact .refl (by simp [Calls.run, pure])
      · rename_i hother
        refine renewLeaseObject_claims faults _ hholder hobject fun hheld => ?_
        rw [leaseHeldByOther_fst, hheld] at hother
        exact leaseHeldByOther_snd (by simpa using hother)
  · exact .refl (by simp [Calls.run, pure])
  · exact .refl (by simp [Calls.run, pure])

theorem renewClusterLease_claims (faults : LeaseReq → Option Fault) (bk : PerconaValkeyBackup) :
    Claims (leaseHolderID bk) False lock (lock.perform faults (renewClusterLease bk)).2 := by
  have hholder := leaseHolderID_ne_nil bk
  unfold LeaseWorld.perform renewClusterLease
  simp only [bind, Calls.ask, Calls.bind, Calls.run, LeaseWorld.serve]
  rcases faults .get with _ | e | e
  · cases hobject : lock.lease.object with
    | none => exact .refl not_false
    | some copy =>
      obtain ⟨lease, version⟩ := copy
      dsimp only
      split
      · exact .refl not_false
      · rename_i hown
        have hclaims := renewLeaseObject_claims faults (leaseName bk.spec.clusterName)
          hholder hobject fun _ => by simpa using hown
        change Claims _ _ _ (Calls.run _ (_ >>= fun renewed => pure _) lock).2
        rw [Calls.run_bind]
        exact ⟨hclaims.clock, hclaims.lease, not_false.elim⟩
  · exact .refl not_false
  · exact .refl not_false

/-- A release clears the backup's own lease at most. -/
theorem releaseClusterLease_clears (faults : LeaseReq → Option Fault) (bk : PerconaValkeyBackup) :
    Clears (leaseHolderID bk) lock (lock.perform faults (releaseClusterLease bk)).2 := by
  unfold LeaseWorld.perform releaseClusterLease
  simp only [bind, Calls.ask, Calls.bind, Calls.run, LeaseWorld.serve]
  rcases faults .get with _ | e | e
  · cases hobject : lock.lease.object with
    | none => exact ⟨rfl, .inl rfl⟩
    | some copy =>
      obtain ⟨lease, version⟩ := copy
      dsimp only
      split
      · exact ⟨rfl, .inl rfl⟩
      · rename_i hown
        have hpatch : lock.lease.patch (mergePatch lease (clearedLease lease)) =
            (.ok, lock.lease.write (mergePatch lease (clearedLease lease) lease)) := by
          simp [Versioned.patch, hobject]
        refine ⟨?_, .inr ⟨lease, by simp [Versioned.stored, hobject], by simpa using hown⟩⟩
        simp only [Calls.run, hpatch]
        rcases lock.reply_cases _ _ with h | ⟨e, h | h⟩ <;> rw [h] <;> rfl
  · exact ⟨rfl, .inl rfl⟩
  · exact ⟨rfl, .inl rfl⟩

end Alone
/-! ## Backups of one cluster, side by side -/

abbrev LeasePool := Pool LeaseReq LeaseResp Str LeaseWorld

/-- A backup of the cluster, as far as the lock looks at it. -/
def backupOf (ns cluster name : Str) : PerconaValkeyBackup :=
  { name := name, ns := ns, spec := { clusterName := cluster } }

inductive LeaseOp where
  | acquire
  | renew
  | release

def LeaseOp.program (bk : PerconaValkeyBackup) : LeaseOp → LeaseCalls Unit
  | .acquire => (acquireClusterLease bk).void
  | .renew => (renewClusterLease bk).void
  | .release => (releaseClusterLease bk).void

/-- Every backup starts one operation after the other; calls are answered one at
a time, with or without a fault, as far as `admits` lets them, and time passes. -/
def leaseProtocol (ns cluster : Str) (admits : LeaseWorld → LeaseReq → Prop) :
    Protocol LeaseReq LeaseResp Str LeaseWorld where
  serve _ w r x w' := admits w r ∧ ∃ fault, w.serve fault r = (x, w')
  drift w w' := w.clock ≤ w'.clock ∧ w'.lease = w.lease
  starts name prog := ∃ op, prog = LeaseOp.program (backupOf ns cluster name) op

/-- The lease that a release has read is still valid when its patch arrives. -/
def Timely (w : LeaseWorld) : LeaseReq → Prop
  | .patch base _ => held base w.clock = true
  | _ => True

/-- The patch a program is about to send, if that is its next call. -/
def pendingPatch : LeaseCalls Unit → Option (Lease × Lease)
  | .call (.patch base modified) _ => some (base, modified)
  | _ => none

/-! ## What a backup knows of the lease -/

/-- The last time and the last copy of the lease that a backup has been given. -/
structure LeaseKnowledge where
  now : Option Int := none
  copy : Option (Lease × Nat) := none

section Discipline

variable (ns cluster : Str)

/-- The copy is the stored lease as long as the version stands; and a copy that
names the backup itself is the stored lease until it expires. -/
structure Knows (w : LeaseWorld) (name : Str) (k : LeaseKnowledge) : Prop where
  now : ∀ t, k.now = some t → t ≤ w.clock
  seen : ∀ c v, k.copy = some (c, v) → w.lease.Seen (c, v)
  own : ∀ c v, k.copy = some (c, v) →
    c.holderIdentity = some (leaseHolderID (backupOf ns cluster name)) →
    w.lease.stored = some c ∨ held c w.clock = false

/-- The calls of the lock: a lease is only taken over from its copy, and only if
that was the backup's own or not valid any more. -/
def Entitled (name : Str) (k : LeaseKnowledge) : LeaseReq → Prop
  | .now | .get | .create _ => True
  | .update _ version => ∃ c, k.copy = some (c, version) ∧
      (c.holderIdentity = some (leaseHolderID (backupOf ns cluster name)) ∨
        ∃ t, k.now = some t ∧ held c t = false)
  | .patch base _ => ∃ version, k.copy = some (base, version) ∧
      base.holderIdentity = some (leaseHolderID (backupOf ns cluster name))

def LeaseKnowledge.learn (k : LeaseKnowledge) : (r : LeaseReq) → LeaseResp r → LeaseKnowledge
  | .now, t => { k with now := some t }
  | .get, .ok object => { k with copy := object }
  | .get, .error _ => { k with copy := none }
  | .create _, _ | .update _ _, _ | .patch _ _, _ => { k with copy := none }

variable {ns cluster} {w : LeaseWorld} {name other : Str} {k k' : LeaseKnowledge}

theorem holder_injective (h : leaseHolderID (backupOf ns cluster other) =
    leaseHolderID (backupOf ns cluster name)) : other = name :=
  (List.cons.inj (List.append_cancel_left h)).2

/-- A write leaves a backup's knowledge alone unless it replaces a valid lease of
that backup. -/
theorem Knows.write (h : Knows ns cluster w name k)
    (hreplaced : ∀ c, w.lease.stored = some c →
      c.holderIdentity = some (leaseHolderID (backupOf ns cluster name)) →
      held c w.clock = false) (lease : Lease) : Knows ns cluster (w.write lease) name k where
  now := h.now
  seen c v hc := (h.seen c v hc).write lease
  own c v hc hown := by
    rcases h.own c v hc hown with hstored | hexpired
    · exact .inr (hreplaced c hstored hown)
    · exact .inr hexpired

theorem Knows.forget (h : Knows ns cluster w name k) :
    Knows ns cluster w name { k with copy := none } :=
  ⟨h.now, fun _ _ hc => (nomatch hc), fun _ _ hc => (nomatch hc)⟩

theorem Knows.forget_write (h : Knows ns cluster w name k) (lease : Lease) :
    Knows ns cluster (w.write lease) name { k with copy := none } :=
  ⟨h.now, fun _ _ hc => (nomatch hc), fun _ _ hc => (nomatch hc)⟩

/-- A timely patch clears the lease of the backup that sends it. -/
theorem Knows.patched {base : Lease} (h : Knows ns cluster w name k)
    (hcopy : k.copy = some (base, version))
    (hown : base.holderIdentity = some (leaseHolderID (backupOf ns cluster name)))
    (htimely : held base w.clock = true) : w.lease.stored = some base := by
  rcases h.own base version hcopy hown with hstored | hexpired
  · exact hstored
  · simp [htimely] at hexpired

/-- A call that a backup is entitled to does not replace a valid lease of another. -/
theorem Knows.unharmed {r : LeaseReq} (fault : Option Fault) (hk : Knows ns cluster w name k)
    (hentitled : Entitled ns cluster name k r) (htimely : Timely w r) (hne : other ≠ name)
    (h : Knows ns cluster w other k') : Knows ns cluster (w.serve fault r).2 other k' := by
  -- what is replaced has the writer's own name or has expired
  have hothers : ∀ c : Lease, c.holderIdentity = some (leaseHolderID (backupOf ns cluster name)) →
      c.holderIdentity ≠ some (leaseHolderID (backupOf ns cluster other)) := by
    intro c hc ho
    exact hne (holder_injective (Option.some.inj (ho.symm.trans hc)))
  cases r with
  | now => exact h
  | get => cases fault with
    | none => exact h
    | some f => cases f <;> exact h
  | create lease =>
    rcases w.serve_create fault lease with hw | ⟨hnone, hw⟩
    · rw [hw]; exact h
    · rw [hw]
      exact h.write (fun c hc => by simp [hnone] at hc) lease
  | update lease version =>
    obtain ⟨c, hcopy, hc⟩ := hentitled
    rcases LeaseWorld.serve_update (hk.seen c version hcopy) fault lease with hw | ⟨hstored, hw⟩
    · rw [hw]; exact h
    · rw [hw]
      refine h.write (fun d hd hown => ?_) lease
      obtain rfl : c = d := Option.some.inj (hstored.symm.trans hd)
      rcases hc with hc | ⟨t, hnow, hfree⟩
      · exact absurd hown (hothers c hc)
      · exact held_mono hfree (hk.now t hnow)
  | patch base modified =>
    obtain ⟨version, hcopy, hown⟩ := hentitled
    have hbase := hk.patched hcopy hown htimely
    rcases w.serve_patch fault base modified with hw | ⟨c, hstored, hw⟩
    · rw [hw]; exact h
    · rw [hw]
      refine h.write (fun d hd ho => ?_) _
      obtain rfl : base = d := Option.some.inj (hbase.symm.trans hd)
      exact absurd ho (hothers base hown)

theorem Knows.learned {r : LeaseReq} (fault : Option Fault) (hk : Knows ns cluster w name k)
    (hentitled : Entitled ns cluster name k r) :
    Knows ns cluster (w.serve fault r).2 name (k.learn r (w.serve fault r).1) := by
  cases r with
  | now => exact ⟨fun t ht => by cases ht; exact Int.le_refl _, hk.seen, hk.own⟩
  | get => cases fault with
    | none =>
      refine ⟨hk.now, fun c v hc => Versioned.seen_object hc, fun c v hc _ => .inl ?_⟩
      have hobject : w.lease.object = some (c, v) := hc
      change w.lease.stored = some c
      simp [Versioned.stored, hobject]
    | some f => cases f <;> exact hk.forget
  | create lease =>
    rcases w.serve_create fault lease with hw | ⟨-, hw⟩
    · rw [hw]; exact hk.forget
    · rw [hw]; exact hk.forget_write lease
  | update lease version =>
    obtain ⟨c, hcopy, -⟩ := hentitled
    rcases LeaseWorld.serve_update (hk.seen c version hcopy) fault lease with hw | ⟨-, hw⟩
    · rw [hw]; exact hk.forget
    · rw [hw]; exact hk.forget_write lease
  | patch base modified =>
    rcases w.serve_patch fault base modified with hw | ⟨c, -, hw⟩
    · rw [hw]; exact hk.forget
    · rw [hw]; exact hk.forget_write _

variable (ns cluster)

def leaseDiscipline : Discipline (leaseProtocol ns cluster Timely) LeaseKnowledge where
  knows := Knows ns cluster
  allows := Entitled ns cluster
  learn := LeaseKnowledge.learn
  blank := {}
  knows_blank _ _ := ⟨fun _ h => (nomatch h), fun _ _ h => (nomatch h), fun _ _ h => (nomatch h)⟩
  drifted := by
    rintro w w' name k ⟨hclock, hlease⟩ h
    refine ⟨fun t ht => (h.now t ht).trans hclock, fun c v hc => hlease ▸ h.seen c v hc,
      fun c v hc hown => ?_⟩
    rcases h.own c v hc hown with hstored | hexpired
    · exact .inl (hlease ▸ hstored)
    · exact .inr (held_mono hexpired hclock)
  learned := by
    rintro w name k r x w' hk hentitled ⟨-, fault, hserve⟩
    have := hk.learned fault hentitled
    rwa [hserve] at this
  unharmed := by
    rintro w name k r x w' other k' hk hentitled ⟨htimely, fault, hserve⟩ hne h
    have := hk.unharmed fault hentitled htimely hne h
    rwa [hserve] at this

theorem safe_createLease (k : LeaseKnowledge) (lock holder : Str) (t : Int) :
    (leaseDiscipline ns cluster).Safe name k (createLease lock holder t).void := by
  refine ⟨trivial, fun reply => ?_⟩
  cases reply <;> trivial

theorem safe_renewLeaseObject {c : Lease} (lock holder : Str) (t : Int)
    (hcopy : k.copy = some (c, version))
    (hc : c.holderIdentity = some (leaseHolderID (backupOf ns cluster name)) ∨
      ∃ t, k.now = some t ∧ held c t = false) :
    (leaseDiscipline ns cluster).Safe name k
      (renewLeaseObject lock c version holder t).void := by
  refine ⟨⟨c, hcopy, hc⟩, fun reply => ?_⟩
  cases reply <;> trivial

theorem safe_acquireClusterLease :
    (leaseDiscipline ns cluster).Safe name {} (acquireClusterLease (backupOf ns cluster name)).void := by
  refine ⟨trivial, fun t => ⟨trivial, fun got => ?_⟩⟩
  rcases got with e | _ | ⟨c, version⟩
  · trivial
  · exact safe_createLease ns cluster _ _ _ _
  · change (leaseDiscipline ns cluster).Safe name _ (Calls.void (if _ then _ else _))
    split
    · trivial
    · rename_i hblocked
      refine safe_renewLeaseObject ns cluster _ _ _ rfl ?_
      by_cases hheld : held c t = true
      · left
        simp only [leaseHeldByOther_fst, hheld, Bool.true_and, Bool.not_eq_eq_eq_not, Bool.not_true,
          Bool.not_eq_false] at hblocked
        exact leaseHeldByOther_snd hblocked
      · exact .inr ⟨t, rfl, by simpa using hheld⟩

theorem safe_renewClusterLease :
    (leaseDiscipline ns cluster).Safe name {} (renewClusterLease (backupOf ns cluster name)).void := by
  refine ⟨trivial, fun got => ?_⟩
  rcases got with e | _ | ⟨c, version⟩
  · trivial
  · trivial
  · change (leaseDiscipline ns cluster).Safe name _ (Calls.void (if _ then _ else _))
    split
    · trivial
    · rename_i hown
      refine ⟨trivial, fun t => ⟨⟨c, rfl, .inl (not_not.mp hown)⟩, fun reply => ?_⟩⟩
      cases reply <;> trivial

theorem safe_releaseClusterLease :
    (leaseDiscipline ns cluster).Safe name {}
      (releaseClusterLease (backupOf ns cluster name)).void := by
  refine ⟨trivial, fun got => ?_⟩
  rcases got with e | _ | ⟨c, version⟩
  · trivial
  · trivial
  · change (leaseDiscipline ns cluster).Safe name _ (Calls.void (if _ then _ else _))
    split
    · trivial
    · rename_i hown
      refine ⟨⟨version, rfl, not_not.mp hown⟩, fun reply => ?_⟩
      cases reply <;> trivial

theorem safe_program (op : LeaseOp) :
    (leaseDiscipline ns cluster).Safe name {} (op.program (backupOf ns cluster name)) := by
  cases op with
  | acquire => exact safe_acquireClusterLease ns cluster
  | renew => exact safe_renewClusterLease ns cluster
  | release => exact safe_releaseClusterLease ns cluster

end Discipline

/-- When every patch arrives before the lease read for it has expired, a release
clears only its own lease: whatever the calls of the other backups in between, the
stored holder is still the backup itself. -/
theorem releaseClusterLease_clears_own (ns cluster : Str) {start p : LeasePool}
    (hidle : ∀ name, start.threads name = .done ())
    (hrun : Relation.ReflTransGen (leaseProtocol ns cluster Timely).Step start p)
    {name : Str} {base modified lease : Lease}
    (hpatch : pendingPatch (p.threads name) = some (base, modified))
    (htimely : held base p.world.clock = true) (hstored : p.world.lease.stored = some lease) :
    lease.holderIdentity = some (leaseHolderID (backupOf ns cluster name)) := by
  have hsteady : (leaseDiscipline ns cluster).Steady p := by
    refine (leaseDiscipline ns cluster).steady_run ?_ (Discipline.steady_of_idle _ hidle) hrun
    rintro i prog ⟨op, rfl⟩
    exact safe_program ns cluster op
  have hcall : ∃ next, p.threads name = .call (.patch base modified) next := by
    unfold pendingPatch at hpatch
    split at hpatch
    · cases hpatch
      exact ⟨_, ‹_›⟩
    · cases hpatch
  obtain ⟨next, hcall⟩ := hcall
  obtain ⟨k, hknows, version, hcopy, hown⟩ := hsteady.entitled hcall
  have hbase := Knows.patched hknows hcopy hown htimely
  rw [hstored] at hbase
  cases hbase
  exact hown

/-! ## Interleavings that can be played -/

inductive LeaseEvent where
  | tick (elapsed : Nat)
  | start (name : Str) (op : LeaseOp)
  | answer (name : Str) (fault : Option Fault)

/-- Let one thing happen; what is not possible is skipped. -/
def play (ns cluster : Str) (p : LeasePool) : LeaseEvent → LeasePool
  | .tick elapsed => { p with world := { p.world with clock := p.world.clock + elapsed } }
  | .start name op =>
    match p.threads name with
    | .done () =>
      { p with threads := Function.update p.threads name (op.program (backupOf ns cluster name)) }
    | .call _ _ => p
  | .answer name fault =>
    match p.threads name with
    | .done () => p
    | .call r next =>
      ⟨(p.world.serve fault r).2, Function.update p.threads name (next (p.world.serve fault r).1)⟩

/-- No patch is answered. -/
def spares (p : LeasePool) : LeaseEvent → Bool
  | .answer name _ => (pendingPatch (p.threads name)).isNone
  | _ => true

def playAll (ns cluster : Str) (p : LeasePool) (events : List LeaseEvent) : LeasePool :=
  events.foldl (play ns cluster) p

def sparesAll (ns cluster : Str) (p : LeasePool) : List LeaseEvent → Bool
  | [] => true
  | e :: events => spares p e && sparesAll ns cluster (play ns cluster p e) events

theorem play_run {ns : Str} {p : LeasePool} {e : LeaseEvent} (h : spares p e = true) :
    Relation.ReflTransGen (leaseProtocol ns cluster Timely).Step p (play ns cluster p e) := by
  cases e with
  | tick elapsed =>
    have hclock : p.world.clock ≤ p.world.clock + elapsed := by omega
    exact .single (.drift ⟨hclock, rfl⟩)
  | start name op =>
    simp only [play]
    split
    · rename_i hidle
      refine .single (.start hidle ?_)
      exact ⟨op, rfl⟩
    · exact .refl
  | answer name fault =>
    simp only [play]
    simp only [spares] at h
    split
    · exact .refl
    · rename_i r next hcall
      refine .single (.answer hcall ?_)
      refine ⟨?_, fault, rfl⟩
      cases r with
      | patch base modified => simp [hcall, pendingPatch] at h
      | _ => trivial

theorem playAll_run {ns : Str} {p : LeasePool} {events : List LeaseEvent}
    (h : sparesAll ns cluster p events = true) :
    Relation.ReflTransGen (leaseProtocol ns cluster Timely).Step p
      (playAll ns cluster p events) := by
  induction events generalizing p with
  | nil => exact .refl
  | cons e events ih =>
    obtain ⟨he, hrest⟩ := Bool.and_eq_true_iff.mp h
    exact (play_run he).trans (ih hrest)

/-- A cluster whose lock nobody has asked for yet. -/
def freshPool : LeasePool where
  world := { clock := 0, lease := .absent }
  threads _ := .done ()

/-- `bk-1` takes the lock, and a while later is about to clear it. -/
def releasing (elapsed : Nat) : List LeaseEvent :=
  [.start "bk-1" .acquire, .answer "bk-1" none, .answer "bk-1" none,
    .answer "bk-1" none, .tick elapsed, .start "bk-1" .release,
    .answer "bk-1" none]

/-- `bk-2` takes the lock over. -/
def takingOver : List LeaseEvent :=
  [.start "bk-2" .acquire, .answer "bk-2" none, .answer "bk-2" none, .answer "bk-2" none]

/-- A release that takes a second clears the lease of `bk-1`, although `bk-2` asks for
the lock before the patch arrives: what `bk-2` asks for is refused. -/
theorem releaseClusterLease_clears_own_one_second :
    let p := playAll [] "prod" freshPool (releasing 1000000 ++ takingOver)
    (pendingPatch (p.threads "bk-1")).isSome = true ∧
      ∃ lease, p.world.lease.stored = some lease ∧
        lease.holderIdentity = some (leaseHolderID (backupOf [] "prod" "bk-1")) := by
  have hrun : Relation.ReflTransGen (leaseProtocol [] "prod" Timely).Step freshPool
      (playAll [] "prod" freshPool (releasing 1000000 ++ takingOver)) :=
    playAll_run (by decide)
  refine ⟨by decide, _, rfl, ?_⟩
  exact releaseClusterLease_clears_own [] "prod" (fun _ => rfl) hrun rfl (by decide) rfl

theorem leaseProtocol_mono {ns : Str} {admits admits' : LeaseWorld → LeaseReq → Prop}
    (hadmits : ∀ w r, admits w r → admits' w r) {a b : LeasePool}
    (h : (leaseProtocol ns cluster admits).Step a b) :
    (leaseProtocol ns cluster admits').Step a b := by
  cases h with
  | drift h => exact .drift h
  | start hidle h => exact .start hidle h
  | answer hcall h =>
    refine .answer hcall ?_
    exact ⟨hadmits _ _ h.1, h.2⟩

/-- `bk-1` reads its lease when that has just expired, `bk-2` takes it over, and
the patch of `bk-1` then clears the lease of `bk-2`. -/
theorem releaseClusterLease_clears_anothers :
    let p := playAll [] "prod" freshPool (releasing 30000000 ++ takingOver)
    Relation.ReflTransGen (leaseProtocol [] "prod" fun _ _ => True).Step freshPool p ∧
      (pendingPatch (p.threads "bk-1")).isSome = true ∧
      p.world.lease.stored.map Lease.holderIdentity =
        some (some (leaseHolderID (backupOf [] "prod" "bk-2"))) ∧
      (play [] "prod" p (.answer "bk-1" none)).world.lease.stored.map
        Lease.holderIdentity = some none := by
  have hrun : Relation.ReflTransGen (leaseProtocol [] "prod" Timely).Step freshPool
      (playAll [] "prod" freshPool (releasing 30000000 ++ takingOver)) :=
    playAll_run (by decide)
  refine ⟨?_, by decide, by decide, by decide⟩
  exact Relation.ReflTransGen.mono (fun _ _ => leaseProtocol_mono fun _ _ _ => trivial) _ _ hrun

end ValkeyOperator.Backup

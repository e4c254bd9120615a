import Mathlib.Algebra.Order.BigOperators.Group.List
import Mathlib.Algebra.Order.Group.Nat
import ValkeyOperator.Backup.Types
import ValkeyOperator.Lib.Elapsed
import ValkeyOperator.Lib.Runs
import ValkeyOperator.Lib.Triple

/-! Backup schedules (`perconavalkeybackup/schedule.go`).

The scheduler keeps, for every schedule of every cluster, the last time it has acted on. A
tick acts on the latest slot that has elapsed since then: it creates a backup, unless one
of the same schedule is still active or has the slot's name. Whatever comes of it, the slot
becomes the new anchor.

A run is recorded in a log of what the scheduler has done. A backup that is stored while the
answer is lost ends the tick before the slot becomes the anchor, and the slot may be fired
again. -/

namespace ValkeyOperator.Backup
open Text Valkey Api
open Elapsed

variable {now : Int} {st : ScheduleState} {after : ScheduleStates} {faults : TickFaults}

/-! ## The registry -/

/-- An entry of `spec.backup.schedule`. -/
structure ScheduleSpec where
  name : Str
  schedule : Str
  storageName : Str := []
  keep : Int := 0
deriving DecidableEq

/-- What the scheduler looks at of a cluster. -/
structure ScheduledCluster where
  ns : Str
  name : Str
  deleting : Bool := false
  schedule : List ScheduleSpec
deriving DecidableEq

/-- A parsed cron expression. -/
structure CronSchedule where
  next : Int → Int

/-- Times count from the zero time. -/
structure ScheduleState where
  spec : CronSchedule
  cronText : Str
  lastFire : Int

abbrev ScheduleStates := GoMap Str ScheduleState

def clusterKey (ns name : Str) : Str := ns ++ "/" ++ name

/-- The key under which the scheduler keeps a cluster. -/
abbrev ScheduledCluster.key (cluster : ScheduledCluster) : Str :=
  clusterKey cluster.ns cluster.name

/-- What is registered under a cluster's key. -/
def schedulesOf (states : GoMap Str ScheduleStates) (key : Str) : ScheduleStates :=
  (states.lookup key).getD ∅

section Sync
variable (parse : Str → Except Err CronSchedule) (now : Int)

/-- The state of an entry: unchanged, with a new cron and the old anchor, or new. -/
def syncEntry (cur : ScheduleStates) (sched : ScheduleSpec) : Except Err ScheduleStates :=
  let existing := cur.lookup sched.name
  if existing.any (fun st => st.cronText = sched.schedule) then .ok cur
  else
    match parse sched.schedule with
    | .error e => .error (e.wrap ("schedule " ++ quote sched.name ++ ": invalid cron " ++
        quote sched.schedule))
    | .ok parsed => .ok (cur.insert sched.name
        { spec := parsed, cronText := sched.schedule, lastFire := existing.elim now (·.lastFire) })

/-- The entries up to the first one whose cron does not parse. -/
def syncEntries : List ScheduleSpec → ScheduleStates → ScheduleStates × Option Err
  | [], cur => (cur, none)
  | sched :: rest, cur =>
    match syncEntry parse now cur sched with
    | .error e => (cur, some e)
    | .ok cur => syncEntries rest cur

/-- Drop the states of schedules that are not in the spec. -/
def dropUnwanted (want : List Str) (cur : ScheduleStates) : ScheduleStates :=
  cur.keys.foldl (fun m name => if name ∈ want then m else m.erase name) cur

/-- The states of a cluster are changed in place: where a cron does not parse, the entries
before it keep their changes if the cluster was registered. -/
def sync (cluster : ScheduledCluster) (states : GoMap Str ScheduleStates) :
    GoMap Str ScheduleStates × Option Err :=
  let key := cluster.key
  if cluster.deleting ∨ cluster.schedule = [] then (states.erase key, none)
  else
    match syncEntries parse now cluster.schedule (schedulesOf states key) with
    | (cur, some e) => (if key ∈ states then states.insert key cur else states, some e)
    | (cur, none) => (states.insert key (dropUnwanted (cluster.schedule.map (·.name)) cur), none)

end Sync

/-! ## Due slots -/

/-- The latest slot that has elapsed since the anchor, if any; `none` if the search is not
over after so many steps. -/
def mostRecentElapsedSlot (fuel : Nat) (st : ScheduleState) (now : Int) : Option (Option Int) :=
  (lastUpTo st.spec.next now fuel 0 st.lastFire).map fun last => if last = 0 then none else some last

structure Due where
  name : Str
  slot : Int
  st : ScheduleState

/-- `none` if one of the searches is not over. -/
def duesOf (fuel : Nat) (now : Int) (cur : ScheduleStates) : List Str → Option (List Due)
  | [] => some []
  | name :: rest =>
    match cur.lookup name with
    | none => duesOf fuel now cur rest
    | some st =>
      match mostRecentElapsedSlot fuel st now with
      | none => none
      | some none => duesOf fuel now cur rest
      | some (some slot) => (duesOf fuel now cur rest).map (⟨name, slot, st⟩ :: ·)

/-- In the order of their names. -/
def dues (fuel : Nat) (now : Int) (cur : ScheduleStates) : Option (List Due) :=
  duesOf fuel now cur (cur.keys.insertionSort (· ≤ ·))

/-- Slots that ascend have passed now after so many steps. -/
def searchFuel (now : Int) (cur : ScheduleStates) : Nat :=
  (cur.entries.map fun e => (now - e.2.lastFire).toNat).sum + 1

/-! ## Firing -/

/-- A backup as the API server stores it. -/
structure StoredBackup extends PerconaValkeyBackup where
  labels : StrMap := ∅
  annotations : StrMap := ∅
  creationTimestamp : Int := 0
deriving DecidableEq

def labelBackupSchedule : Str := "valkey.percona.com/backup-schedule"

def annScheduledAt : Str := "valkey.percona.com/scheduled-at"

/-- How times are written: in a name and in an annotation. -/
structure TimeLayouts where
  stamp : Int → Str
  rfc3339 : Int → Str

def scheduledBackupName (layouts : TimeLayouts) (cluster schedule : Str) (slot : Int) : Str :=
  cluster ++ "-" ++ schedule ++ "-" ++ layouts.stamp slot

def scheduledBackup (layouts : TimeLayouts) (cluster : ScheduledCluster) (sched : ScheduleSpec)
    (slot : Int) : StoredBackup where
  name := scheduledBackupName layouts cluster.name sched.name slot
  ns := cluster.ns
  labels := (componentLabels cluster.name "backup").insert labelBackupSchedule sched.name
  annotations := AList.singleton annScheduledAt (layouts.rfc3339 slot)
  spec := { clusterName := cluster.name, storageName := sched.storageName }

/-- A backup of the schedule, by its labels. -/
def ofSchedule (cluster : ScheduledCluster) (schedule : Str) (bk : StoredBackup) : Bool :=
  bk.ns = cluster.ns && bk.labels.lookup labelCluster = some cluster.name &&
    bk.labels.lookup labelBackupSchedule = some schedule

/-- Neither about to be deleted nor in a final state. -/
def isActiveRun (bk : StoredBackup) : Bool := !bk.deleting && !isTerminal bk.toPerconaValkeyBackup

inductive FireResult where
  | created
  | overlap
  | deduped
deriving DecidableEq

/-- What the scheduler has done: taken a schedule up, or acted on a slot of it. -/
inductive Deed where
  | registered (key name : Str) (time : Int)
  | acted (key : Str) (due : Due) (now : Int) (result : FireResult)

structure SchedulerWorld where
  states : GoMap Str ScheduleStates := ∅
  backups : List StoredBackup := []
  clock : Int := 0
  log : List Deed := []

/-- How the calls of a tick fail, if they do. -/
structure TickFaults where
  list : Str → Option Err := fun _ => none
  owner : Option Err := none
  create : Str → Option Fault := fun _ => none

namespace SchedulerWorld

def schedules (w : SchedulerWorld) (key : Str) : ScheduleStates := schedulesOf w.states key

def store (w : SchedulerWorld) (bk : StoredBackup) : SchedulerWorld :=
  { w with backups := w.backups ++ [{ bk with creationTimestamp := w.clock }] }

def has (w : SchedulerWorld) (bk : StoredBackup) : Bool :=
  w.backups.any fun b => b.ns = bk.ns && b.name = bk.name

/-- The slot becomes the anchor of the schedule, if it is still registered. -/
def act (w : SchedulerWorld) (key : Str) (d : Due) (result : FireResult) : SchedulerWorld :=
  { w with
    states := match (w.schedules key).lookup d.name with
      | none => w.states
      | some st => w.states.insert key ((w.schedules key).insert d.name { st with lastFire := d.slot })
    log := w.log ++ [.acted key d w.clock result] }

end SchedulerWorld

/-- Whether the backup is made; if not, there is one of its name. -/
def createBackup (fault : Option Fault) (bk : StoredBackup) : Action SchedulerWorld Bool := fun w =>
  match fault with
  | none => if w.has bk then .ok false w else .ok true (w.store bk)
  | some (.refused e) => .error e w
  | some (.lost e) => .error e (if w.has bk then w else w.store bk)

section Tick
variable (layouts : TimeLayouts) (faults : TickFaults) (cluster : ScheduledCluster)

def scheduleHasActiveRun (schedule : Str) : Action SchedulerWorld Bool :=
  (Action.read (faults.list schedule) fun w =>
    (w.backups.filter (ofSchedule cluster schedule)).any isActiveRun).mapErr
      (Err.wrap ("list scheduled backups for " ++ quote schedule))

def fireSchedule (sched : ScheduleSpec) (slot : Int) : Action SchedulerWorld FireResult := do
  let running ← scheduleHasActiveRun faults cluster sched.name
  if running then pure .overlap
  else
    let bk := scheduledBackup layouts cluster sched slot
    (Action.read faults.owner fun _ => ()).mapErr (Err.wrap "set scheduled-backup owner-ref")
    let made ← (createBackup (faults.create sched.name) bk).mapErr
      (Err.wrap ("create scheduled backup " ++ quote bk.name))
    pure (if made then .created else .deduped)

def findSchedule (name : Str) : Option ScheduleSpec := cluster.schedule.find? (·.name = name)

/-- A backup that is stored is in the log, also if the answer is lost. -/
def logged (key : Str) (d : Due) (fire : Action SchedulerWorld FireResult) :
    Action SchedulerWorld FireResult := fun w =>
  match fire w with
  | .ok result v => .ok result v
  | .error e v => .error e (if v.backups = w.backups then v
      else { v with log := v.log ++ [.acted key d v.clock .created] })

/-- The due schedules one after another; the number of backups made. -/
def fireEach : List Due → Nat → Action SchedulerWorld Nat
  | [], created => pure created
  | d :: rest, created =>
    match findSchedule cluster d.name with
    | none => fireEach rest created
    | some sched => do
      let key := cluster.key
      let result ← logged key d (fireSchedule layouts faults cluster sched d.slot)
      modify fun w => w.act key d result
      fireEach rest (if result = .created then created + 1 else created)

/-- The due schedules are looked up at the start; `none` if that is not over. -/
def tick (fuel : Nat) (w : SchedulerWorld) : Option (Action SchedulerWorld Nat) :=
  (dues fuel w.clock (w.schedules cluster.key)).map fun ds =>
    fireEach layouts faults cluster ds 0

end Tick

/-! ## Runs -/

/-- A synchronisation, a tick, a new scheduler, or anything that happens to the backups in
between. -/
inductive SchedulerEvent where
  | sync (cluster : ScheduledCluster) (now : Int)
  | tick (faults : TickFaults) (cluster : ScheduledCluster) (now : Int)
  | restart
  | others (backups : List StoredBackup)

/-- The schedules that a synchronisation has taken up. -/
def registrations (key : Str) (now : Int) (before after : ScheduleStates) : List Deed :=
  (after.keys.filter fun name => name ∉ before).map fun name => .registered key name now

section Step
variable (parse : Str → Except Err CronSchedule) (layouts : TimeLayouts)

namespace SchedulerWorld

def syncAt (w : SchedulerWorld) (cluster : ScheduledCluster) (now : Int) : SchedulerWorld :=
  let key := cluster.key
  let states := (sync parse now cluster w.states).1
  { w with
    states, clock := now
    log := w.log ++ registrations key now (w.schedules key) (schedulesOf states key) }

def tickAt (w : SchedulerWorld) (faults : TickFaults) (cluster : ScheduledCluster) (now : Int) :
    SchedulerWorld :=
  let fuel := searchFuel now (w.schedules cluster.key)
  match tick layouts faults cluster fuel { w with clock := now } with
  | none => { w with clock := now }
  | some fire => fire.after { w with clock := now }

def step (w : SchedulerWorld) : SchedulerEvent → SchedulerWorld
  | .sync cluster now => w.syncAt parse cluster now
  | .tick faults cluster now => w.tickAt layouts faults cluster now
  | .restart => { w with states := ∅ }
  | .others backups => { w with backups }

/-- The clock does not go back. -/
def Forward (w : SchedulerWorld) : SchedulerEvent → Prop
  | .sync _ now => w.clock ≤ now
  | .tick _ _ now => w.clock ≤ now
  | _ => True

instance (w : SchedulerWorld) : (e : SchedulerEvent) → Decidable (w.Forward e)
  | .sync _ now => inferInstanceAs (Decidable (w.clock ≤ now))
  | .tick _ _ now => inferInstanceAs (Decidable (w.clock ≤ now))
  | .restart => inferInstanceAs (Decidable True)
  | .others _ => inferInstanceAs (Decidable True)

end SchedulerWorld

/-- No backup is stored behind an error. -/
def TickFaults.Answered (faults : TickFaults) : Prop :=
  ∀ schedule e, faults.create schedule ≠ some (.lost e)

def SchedulerEvent.Answered : SchedulerEvent → Prop
  | .tick faults _ _ => faults.Answered
  | _ => True

end Step

/-! ## What a synchronisation leaves -/

section Synced
variable (parse : Str → Except Err CronSchedule) (now : Int)

/-- Every state is what its cron says. -/
def Known (cur : ScheduleStates) : Prop :=
  ∀ name st, cur.lookup name = some st → parse st.cronText = .ok st.spec

/-- A state keeps the anchor it had, or is new and anchored now. -/
def Anchored (before : ScheduleStates) (name : Str) (st : ScheduleState) : Prop :=
  (∃ old, before.lookup name = some old ∧ st.lastFire = old.lastFire) ∨
    before.lookup name = none ∧ st.lastFire = now

structure Synced (before after : ScheduleStates) : Prop where
  known : Known parse after
  anchored : ∀ name st, after.lookup name = some st → Anchored now before name st

variable {parse now} {before cur : ScheduleStates}

theorem Synced.refl (h : Known parse cur) : Synced parse now cur cur :=
  ⟨h, fun _ st hst => .inl ⟨st, hst, rfl⟩⟩

theorem Synced.of_lookup (h : Synced parse now before cur)
    (hsub : ∀ name st, after.lookup name = some st → cur.lookup name = some st) :
    Synced parse now before after :=
  ⟨fun name st hst => h.known name st (hsub name st hst),
    fun name st hst => h.anchored name st (hsub name st hst)⟩

theorem Synced.insert (h : Synced parse now before cur)
    (hgrows : ∀ name, cur.lookup name = none → before.lookup name = none) {name : Str}
    (hparse : parse st.cronText = .ok st.spec)
    (hanchor : st.lastFire = (cur.lookup name).elim now (·.lastFire)) :
    Synced parse now before (cur.insert name st) := by
  refine ⟨fun n st' hst' => ?_, fun n st' hst' => ?_⟩
  · by_cases hn : n = name
    · subst hn
      rw [AList.lookup_insert, Option.some.injEq] at hst'
      exact hst' ▸ hparse
    · rw [AList.lookup_insert_ne hn] at hst'
      exact h.known n st' hst'
  · by_cases hn : n = name
    · subst hn
      rw [AList.lookup_insert, Option.some.injEq] at hst'
      subst hst'
      cases hcur : cur.lookup n with
      | none => exact .inr ⟨hgrows n hcur, by rw [hanchor, hcur]; rfl⟩
      | some old =>
        have hsame : st.lastFire = old.lastFire := by rw [hanchor, hcur]; rfl
        rw [Anchored, hsame]
        exact h.anchored n old hcur
    · rw [AList.lookup_insert_ne hn] at hst'
      exact h.anchored n st' hst'

theorem syncEntry_synced {sched : ScheduleSpec} (hrun : syncEntry parse now cur sched = .ok after)
    (h : Synced parse now before cur)
    (hgrows : ∀ name, cur.lookup name = none → before.lookup name = none) :
    Synced parse now before after ∧ ∀ name, after.lookup name = none → before.lookup name = none := by
  unfold syncEntry at hrun
  dsimp only at hrun
  split at hrun
  · cases hrun
    exact ⟨h, hgrows⟩
  · split at hrun
    · cases hrun
    · rename_i parsed hparse
      cases hrun
      refine ⟨h.insert hgrows hparse rfl, fun n hn => hgrows n ?_⟩
      by_cases hname : n = sched.name
      · subst hname
        rw [AList.lookup_insert] at hn
        cases hn
      · rwa [AList.lookup_insert_ne hname] at hn

theorem syncEntries_synced (scheds : List ScheduleSpec) (h : Synced parse now before cur)
    (hgrows : ∀ name, cur.lookup name = none → before.lookup name = none) :
    Synced parse now before (syncEntries parse now scheds cur).1 := by
  induction scheds generalizing cur with
  | nil => exact h
  | cons sched rest ih =>
    unfold syncEntries
    split
    · exact h
    · rename_i after hrun
      obtain ⟨hafter, hgrows'⟩ := syncEntry_synced hrun h hgrows
      exact ih hafter hgrows'

theorem lookup_dropUnwanted {want : List Str} {name : Str}
    (h : (dropUnwanted want cur).lookup name = some st) : cur.lookup name = some st := by
  unfold dropUnwanted at h
  generalize cur.keys = names at h
  induction names generalizing cur with
  | nil => exact h
  | cons n rest ih =>
    rw [List.foldl_cons] at h
    have hstep := ih h
    split at hstep
    · exact hstep
    · by_cases hn : name = n
      · subst hn
        rw [AList.lookup_erase] at hstep
        cases hstep
      · rwa [AList.lookup_erase_ne hn] at hstep

end Synced

section Registry
variable {parse : Str → Except Err CronSchedule} {now : Int} {states : GoMap Str ScheduleStates}

@[simp] theorem schedulesOf_insert (key : Str) (cur : ScheduleStates) :
    schedulesOf (states.insert key cur) key = cur := by
  rw [schedulesOf, AList.lookup_insert, Option.getD_some]

theorem schedulesOf_insert_ne {key key' : Str} (h : key' ≠ key) (cur : ScheduleStates) :
    schedulesOf (states.insert key cur) key' = schedulesOf states key' := by
  rw [schedulesOf, AList.lookup_insert_ne h, schedulesOf]

theorem schedulesOf_sync_ne {cluster : ScheduledCluster} {key : Str}
    (h : key ≠ cluster.key) :
    schedulesOf (sync parse now cluster states).1 key = schedulesOf states key := by
  unfold sync
  dsimp only
  split
  · rw [schedulesOf, AList.lookup_erase_ne h, schedulesOf]
  · split
    · split
      · exact schedulesOf_insert_ne h _
      · rfl
    · exact schedulesOf_insert_ne h _

theorem sync_synced (cluster : ScheduledCluster)
    (h : Known parse (schedulesOf states cluster.key)) :
    Synced parse now (schedulesOf states cluster.key)
      (schedulesOf (sync parse now cluster states).1 cluster.key) := by
  have hentries : Synced parse now _ _ :=
    syncEntries_synced cluster.schedule (.refl h) fun _ hn => hn
  unfold sync
  dsimp only
  split
  · rw [schedulesOf.eq_1 (states.erase _), AList.lookup_erase]
    exact (Synced.refl h).of_lookup fun _ _ hst => by cases hst
  · split
    · rename_i cur e heq
      rw [heq] at hentries
      split
      · rwa [schedulesOf_insert]
      · exact .refl h
    · rename_i cur heq
      rw [heq] at hentries
      rw [schedulesOf_insert]
      exact hentries.of_lookup fun _ _ hst => lookup_dropUnwanted hst

end Registry

/-! ## What is due -/

section Dues
variable {slots : Int → Prop} {st : ScheduleState} {fuel : Nat} {now : Int}

/-- The search is over in time, and what it finds is the latest slot. -/
theorem mostRecentElapsedSlot_latest (h : FirstAfter slots st.spec.next)
    (hfuel : (now - st.lastFire).toNat < fuel) :
    ∃ found, mostRecentElapsedSlot fuel st now = some found ∧
      ∀ slot, found = some slot → Latest slots st.lastFire now slot := by
  obtain ⟨last, hlast, hcases⟩ := lastUpTo_eq h 0 hfuel
  refine ⟨if last = 0 then none else some last, ?_, fun slot hslot => ?_⟩
  · rw [mostRecentElapsedSlot, hlast, Option.map_some]
  · split at hslot
    · cases hslot
    · rename_i hne
      cases hslot
      rcases hcases with ⟨hzero, -⟩ | hlatest
      · exact absurd hzero hne
      · exact hlatest

variable {cur : ScheduleStates} {slotsOf : CronSchedule → Int → Prop}

theorem lt_searchFuel {name : Str} (h : cur.lookup name = some st) :
    (now - st.lastFire).toNat < searchFuel now cur :=
  Nat.lt_succ_of_le (List.le_sum_of_mem (List.mem_map.mpr ⟨_, AList.mem_lookup_iff.mp h, rfl⟩))

/-- A due schedule is registered, and its slot is the latest. -/
structure IsDue (slotsOf : CronSchedule → Int → Prop) (now : Int) (cur : ScheduleStates) (d : Due) :
    Prop where
  registered : cur.lookup d.name = some d.st
  latest : Latest (slotsOf d.st.spec) d.st.lastFire now d.slot

theorem duesOf_isDue (h : ∀ name st, cur.lookup name = some st → FirstAfter (slotsOf st.spec) st.spec.next)
    (names : List Str) : ∃ ds, duesOf (searchFuel now cur) now cur names = some ds ∧
      (ds.map (·.name)).Sublist names ∧ ∀ d ∈ ds, IsDue slotsOf now cur d := by
  induction names with
  | nil => exact ⟨[], rfl, .refl _, by simp⟩
  | cons name rest ih =>
    obtain ⟨ds, hds, hsub, hdue⟩ := ih
    unfold duesOf
    split
    · exact ⟨ds, hds, hsub.cons _, hdue⟩
    · rename_i st hst
      obtain ⟨found, hfound, hlatest⟩ := mostRecentElapsedSlot_latest (h name st hst) (lt_searchFuel hst)
      rw [hfound]
      cases found with
      | none => exact ⟨ds, hds, hsub.cons _, hdue⟩
      | some slot =>
        refine ⟨⟨name, slot, st⟩ :: ds, by simp [hds], hsub.cons_cons name, ?_⟩
        exact List.forall_mem_cons.mpr ⟨⟨hst, hlatest slot rfl⟩, hdue⟩

/-- Looking for what is due comes to an end, and finds every schedule once at most. -/
theorem dues_isDue (now : Int)
    (h : ∀ name st, cur.lookup name = some st → FirstAfter (slotsOf st.spec) st.spec.next) :
    ∃ ds, dues (searchFuel now cur) now cur = some ds ∧ (ds.map (·.name)).Nodup ∧
      ∀ d ∈ ds, IsDue slotsOf now cur d := by
  obtain ⟨ds, hds, hsub, hdue⟩ := duesOf_isDue h (cur.keys.insertionSort (· ≤ ·))
  refine ⟨ds, hds, hsub.nodup ?_, hdue⟩
  exact (List.perm_insertionSort _ _).nodup_iff.mpr cur.nodupKeys

end Dues

/-! ## The log -/

namespace Deed

def key : Deed → Str
  | registered key _ _ => key
  | acted key _ _ _ => key

def name : Deed → Str
  | registered _ name _ => name
  | acted _ due _ _ => due.name

/-- When a schedule was taken up, or the slot that was acted on. -/
def time : Deed → Int
  | registered _ _ time => time
  | acted _ due _ _ => due.slot

/-- A slot is later than whatever the scheduler has done for its schedule before. -/
def Before (d : Deed) : Deed → Prop
  | registered _ _ _ => True
  | acted key due _ _ => d.key = key → d.name = due.name → d.time < due.slot

instance (d : Deed) : (e : Deed) → Decidable (d.Before e)
  | registered _ _ _ => inferInstanceAs (Decidable True)
  | acted key due _ _ =>
    inferInstanceAs (Decidable (d.key = key → d.name = due.name → d.time < due.slot))

/-- A slot is the latest up to its tick that is later than the anchor. -/
def IsLatest (slotsOf : CronSchedule → Int → Prop) : Deed → Prop
  | registered _ _ _ => True
  | acted _ due now _ => Latest (slotsOf due.st.spec) due.st.lastFire now due.slot

/-- The backup that a slot of the cluster has got, if it was fired. -/
def backup (layouts : TimeLayouts) (cluster : ScheduledCluster) : Deed → Option StoredBackup
  | acted _ due now .created => (findSchedule cluster due.name).map fun sched =>
      { scheduledBackup layouts cluster sched due.slot with creationTimestamp := now }
  | _ => none

end Deed

section Punctual
variable (parse : Str → Except Err CronSchedule) (slotsOf : CronSchedule → Int → Prop)

/-- An anchor is at or after all that was done for its schedule. -/
structure Punctual (w : SchedulerWorld) : Prop where
  known : ∀ key, Known parse (w.schedules key)
  past : ∀ d ∈ w.log, d.time ≤ w.clock
  anchored : ∀ key name st, (w.schedules key).lookup name = some st →
    ∀ d ∈ w.log, d.key = key → d.name = name → d.time ≤ st.lastFire
  ordered : w.log.Pairwise Deed.Before
  latest : ∀ d ∈ w.log, d.IsLatest slotsOf

variable {parse slotsOf} {w : SchedulerWorld}

theorem Punctual.initial (hstates : w.states = ∅) (hlog : w.log = []) : Punctual parse slotsOf w where
  known key name st hst := by
    rw [SchedulerWorld.schedules, hstates] at hst
    cases hst
  past := by simp [hlog]
  anchored := by simp [hlog]
  ordered := by simp [hlog]
  latest := by simp [hlog]

theorem Punctual.tickTo (h : Punctual parse slotsOf w) (hnow : w.clock ≤ now) :
    Punctual parse slotsOf { w with clock := now } :=
  ⟨h.known, fun d hd => (h.past d hd).trans hnow, h.anchored, h.ordered, h.latest⟩

theorem Punctual.restart (h : Punctual parse slotsOf w) : Punctual parse slotsOf { w with states := ∅ } :=
  ⟨fun _ _ _ hst => (by cases hst), h.past, fun _ _ _ hst => (by cases hst), h.ordered, h.latest⟩

theorem Punctual.others (h : Punctual parse slotsOf w) (backups : List StoredBackup) :
    Punctual parse slotsOf { w with backups } :=
  ⟨h.known, h.past, h.anchored, h.ordered, h.latest⟩

theorem mem_registrations {key : Str} {before : ScheduleStates} {d : Deed}
    (hd : d ∈ registrations key now before after) :
    ∃ name, d = .registered key name now ∧ before.lookup name = none := by
  obtain ⟨name, hname, rfl⟩ := List.mem_map.mp hd
  have hnew := (List.mem_filter.mp hname).2
  exact ⟨name, rfl, AList.lookup_eq_none.mpr (by simpa using hnew)⟩

theorem schedules_syncAt_ne {cluster : ScheduledCluster} {key : Str}
    (h : key ≠ cluster.key) :
    (w.syncAt parse cluster now).schedules key = w.schedules key := schedulesOf_sync_ne h

/-- Schedules are taken up now; the others keep their anchors. -/
theorem Punctual.syncAt (h : Punctual parse slotsOf w) (hnow : w.clock ≤ now)
    (cluster : ScheduledCluster) : Punctual parse slotsOf (w.syncAt parse cluster now) := by
  have hsynced : Synced parse now _ _ :=
    sync_synced cluster (h.known cluster.key)
  have hreg : ∀ d ∈ registrations cluster.key now (w.schedules cluster.key)
      (schedulesOf (sync parse now cluster w.states).1 cluster.key), _ :=
    fun d hd => mem_registrations hd
  constructor
  case known =>
    intro key
    by_cases hkey : key = cluster.key
    · exact hkey ▸ hsynced.known
    · rw [schedules_syncAt_ne hkey]
      exact h.known key
  case past =>
    intro d hd
    rcases List.mem_append.mp hd with hold | hnew
    · exact (h.past d hold).trans hnow
    · obtain ⟨name, rfl, -⟩ := hreg d hnew
      exact le_refl now
  case anchored =>
    intro key name st hst d hd hdkey hdname
    by_cases hkey : key = cluster.key
    · subst hkey
      rcases hsynced.anchored name st hst with ⟨old, hold, hfire⟩ | ⟨hnone, hfire⟩
      · rw [hfire]
        rcases List.mem_append.mp hd with hd | hd
        · exact h.anchored _ name old hold d hd hdkey hdname
        · -- it was not taken up, since it was there before
          obtain ⟨n, rfl, hn⟩ := hreg d hd
          rw [show n = name from hdname] at hn
          exact absurd (hn.symm.trans hold) (by simp)
      · rw [hfire]
        rcases List.mem_append.mp hd with hd | hd
        · exact (h.past d hd).trans hnow
        · obtain ⟨n, rfl, -⟩ := hreg d hd
          exact le_refl now
    · have hst' : (w.schedules key).lookup name = some st := by
        rwa [schedules_syncAt_ne hkey] at hst
      rcases List.mem_append.mp hd with hd | hd
      · exact h.anchored key name st hst' d hd hdkey hdname
      · obtain ⟨n, rfl, -⟩ := hreg d hd
        exact absurd hdkey.symm hkey
  case ordered =>
    refine List.pairwise_append.mpr ⟨h.ordered, ?_, fun d _ e he => ?_⟩
    · refine List.pairwise_of_forall_mem_list fun d _ e he => ?_
      obtain ⟨n, rfl, -⟩ := hreg e he
      trivial
    · obtain ⟨n, rfl, -⟩ := hreg e he
      trivial
  case latest =>
    intro d hd
    rcases List.mem_append.mp hd with hd | hd
    · exact h.latest d hd
    · obtain ⟨n, rfl, -⟩ := hreg d hd
      trivial

/-! ## A slot acted on -/

section Act
variable {key : Str} {d : Due} {result : FireResult}

theorem schedules_act_self (h : (w.schedules key).lookup d.name = some d.st) :
    (w.act key d result).schedules key =
      (w.schedules key).insert d.name { d.st with lastFire := d.slot } := by
  rw [SchedulerWorld.schedules, SchedulerWorld.act, h]
  exact schedulesOf_insert _ _

theorem schedules_act_ne {key' : Str} (h : key' ≠ key) :
    (w.act key d result).schedules key' = w.schedules key' := by
  unfold SchedulerWorld.act SchedulerWorld.schedules
  dsimp only
  split
  · rfl
  · exact schedulesOf_insert_ne h _

theorem lookup_act_ne {name : Str} (h : (w.schedules key).lookup d.name = some d.st)
    (hne : name ≠ d.name) :
    ((w.act key d result).schedules key).lookup name = (w.schedules key).lookup name := by
  rw [schedules_act_self h, AList.lookup_insert_ne hne]

theorem lookup_act_cases {key' name : Str} (h : (w.schedules key).lookup d.name = some d.st)
    (hst : ((w.act key d result).schedules key').lookup name = some st) :
    (key' = key ∧ name = d.name ∧ st = { d.st with lastFire := d.slot }) ∨
      ((key' = key → name ≠ d.name) ∧ (w.schedules key').lookup name = some st) := by
  by_cases hkey : key' = key
  · subst hkey
    by_cases hname : name = d.name
    · subst hname
      rw [schedules_act_self h, AList.lookup_insert, Option.some.injEq] at hst
      exact .inl ⟨rfl, rfl, hst.symm⟩
    · rw [lookup_act_ne h hname] at hst
      exact .inr ⟨fun _ => hname, hst⟩
  · rw [schedules_act_ne hkey] at hst
    exact .inr ⟨fun heq => absurd heq hkey, hst⟩

theorem Punctual.act (h : Punctual parse slotsOf w) (hdue : IsDue slotsOf w.clock (w.schedules key) d) :
    Punctual parse slotsOf (w.act key d result) := by
  constructor
  case known =>
    intro key' name st hst
    rcases lookup_act_cases hdue.registered hst with ⟨rfl, rfl, rfl⟩ | ⟨-, hst⟩
    · exact h.known _ d.name d.st hdue.registered
    · exact h.known key' name st hst
  case past =>
    intro e he
    rcases List.mem_append.mp he with he | he
    · exact h.past e he
    · cases List.mem_singleton.mp he
      exact hdue.latest.upTo
  case anchored =>
    intro key' name st hst e he hekey hename
    rcases lookup_act_cases hdue.registered hst with ⟨rfl, rfl, rfl⟩ | ⟨hother, hst⟩
    · rcases List.mem_append.mp he with he | he
      · exact (h.anchored _ _ _ hdue.registered e he hekey hename).trans hdue.latest.after.le
      · cases List.mem_singleton.mp he
        exact le_refl _
    · rcases List.mem_append.mp he with he | he
      · exact h.anchored key' name st hst e he hekey hename
      · cases List.mem_singleton.mp he
        exact absurd hename.symm (hother hekey.symm)
  case ordered =>
    refine List.pairwise_append.mpr ⟨h.ordered, List.pairwise_singleton _ _, fun e he f hf => ?_⟩
    cases List.mem_singleton.mp hf
    intro hekey hename
    exact (h.anchored key d.name d.st hdue.registered e he hekey hename).trans_lt hdue.latest.after
  case latest =>
    intro e he
    rcases List.mem_append.mp he with he | he
    · exact h.latest e he
    · cases List.mem_singleton.mp he
      exact hdue.latest

end Act

end Punctual

/-! ## A tick -/

section Tick
variable (slotsOf : CronSchedule → Int → Prop) (layouts : TimeLayouts) (cluster : ScheduledCluster)

/-- A slot may be fired: no run of its schedule is active, and no backup has its name. -/
def Free (w : SchedulerWorld) (sched : ScheduleSpec) (slot : Int) : Prop :=
  (∀ b ∈ w.backups, ofSchedule cluster sched.name b = true → isActiveRun b = false) ∧
    w.has (scheduledBackup layouts cluster sched slot) = false

/-- The latest slot of a registered schedule is fired or skipped. -/
def ActsOn (w : SchedulerWorld) (deed : Deed) : Prop :=
  ∃ due result sched, deed = .acted cluster.key due w.clock result ∧
    IsDue slotsOf w.clock (w.schedules cluster.key) due ∧
    findSchedule cluster due.name = some sched ∧
    (result = .created → Free layouts cluster w sched due.slot)

/-- What a tick has done: it acts once on a schedule at most, and the new backups are those of
the slots it has fired. -/
structure Ticked (w w' : SchedulerWorld) (acts : List Deed) : Prop where
  log : w'.log = w.log ++ acts
  backups : w'.backups = w.backups ++ acts.filterMap (Deed.backup layouts cluster)
  acted : ∀ deed ∈ acts, ActsOn slotsOf layouts cluster w deed
  once : (acts.map Deed.name).Nodup

variable (parse : Str → Except Err CronSchedule)

/-- Halfway through a tick: the schedules that are left are as they were at the start, and
have not been acted on. -/
structure Ticking (w : SchedulerWorld) (rest : List Due) (v : SchedulerWorld) : Prop where
  punctual : Punctual parse slotsOf v
  clock : v.clock = w.clock
  pending : ∀ d ∈ rest, (v.schedules cluster.key).lookup d.name = some d.st
  ticked : ∃ acts, Ticked slotsOf layouts cluster w v acts ∧
    ∀ deed ∈ acts, ∀ d ∈ rest, deed.name ≠ d.name

variable {slotsOf layouts cluster parse} {w v : SchedulerWorld} {d : Due} {rest : List Due}
  {sched : ScheduleSpec}

theorem Ticking.start (h : Punctual parse slotsOf w) {ds : List Due}
    (hds : ∀ d ∈ ds, IsDue slotsOf w.clock (w.schedules cluster.key) d) :
    Ticking slotsOf layouts cluster parse w ds w :=
  ⟨h, rfl, fun d hd => (hds d hd).registered, [], ⟨by simp, by simp, by simp, by simp⟩, by simp⟩

theorem Ticking.of_subset {rest' : List Due} (h : Ticking slotsOf layouts cluster parse w rest v)
    (hsub : rest' ⊆ rest) : Ticking slotsOf layouts cluster parse w rest' v := by
  obtain ⟨acts, hticked, hnew⟩ := h.ticked
  exact ⟨h.punctual, h.clock, fun d hd => h.pending d (hsub hd), acts, hticked,
    fun deed hdeed d hd => hnew deed hdeed d (hsub hd)⟩

theorem Free.of_backups (h : Free layouts cluster v sched d.slot)
    (hsub : w.backups ⊆ v.backups) : Free layouts cluster w sched d.slot := by
  refine ⟨fun b hb => h.1 b (hsub hb), Bool.eq_false_iff.mpr fun hhas => ?_⟩
  obtain ⟨b, hb, hsame⟩ := List.any_eq_true.mp hhas
  exact Bool.eq_false_iff.mp h.2 (List.any_eq_true.mpr ⟨b, hsub hb, hsame⟩)

/-- A slot has been fired or skipped, and the anchor not been moved yet. -/
structure Attempted (layouts : TimeLayouts) (cluster : ScheduledCluster) (sched : ScheduleSpec)
    (d : Due) (v : SchedulerWorld) (result : FireResult) (v' : SchedulerWorld) : Prop where
  world : v' = { v with backups := v.backups ++ ((Deed.acted cluster.key d
    v.clock result).backup layouts cluster).toList }
  free : result = .created → Free layouts cluster v sched d.slot

/-- The slot becomes the anchor, and what is stored is what is logged. -/
theorem Ticking.act {v' : SchedulerWorld} {result : FireResult}
    (h : Ticking slotsOf layouts cluster parse w (d :: rest) v)
    (hdue : IsDue slotsOf w.clock (w.schedules cluster.key) d)
    (hrest : d.name ∉ rest.map (·.name)) (hfind : findSchedule cluster d.name = some sched)
    (hfire : Attempted layouts cluster sched d v result v') :
    Ticking slotsOf layouts cluster parse w rest
      (v'.act cluster.key d result) := by
  obtain ⟨acts, hticked, hnew⟩ := h.ticked
  obtain ⟨rfl, hfree⟩ := hfire
  have hreg := h.pending d List.mem_cons_self
  have hne : ∀ e ∈ rest, e.name ≠ d.name := fun e he heq => hrest (List.mem_map.mpr ⟨e, he, heq⟩)
  refine ⟨(h.punctual.others _).act ⟨hreg, h.clock.symm ▸ hdue.latest⟩, h.clock, fun e he => ?_,
    acts ++ [.acted cluster.key d v.clock result], ⟨?_, ?_, ?_, ?_⟩, ?_⟩
  · refine (lookup_act_ne ?_ (hne e he)).trans ?_
    exacts [hreg, h.pending e (List.mem_cons_of_mem _ he)]
  · rw [SchedulerWorld.act, hticked.log, List.append_assoc]
  · rw [SchedulerWorld.act, hticked.backups, List.append_assoc, List.filterMap_append]
    cases hbackup : (Deed.acted _ d v.clock result).backup layouts cluster <;> simp [hbackup]
  · refine List.forall_mem_append.mpr ⟨hticked.acted, List.forall_mem_singleton.mpr ?_⟩
    refine ⟨d, result, sched, by rw [h.clock], hdue, hfind, fun hcreated => ?_⟩
    exact (hfree hcreated).of_backups (hticked.backups ▸ List.subset_append_left _ _)
  · rw [List.map_append, List.nodup_append]
    refine ⟨hticked.once, List.nodup_singleton _, fun name hname name' hname' => ?_⟩
    obtain ⟨deed, hdeed, rfl⟩ := List.mem_map.mp hname
    cases List.mem_singleton.mp hname'
    exact hnew deed hdeed d List.mem_cons_self
  · intro deed hdeed e he
    rcases List.mem_append.mp hdeed with hdeed | hdeed
    · exact hnew deed hdeed e (List.mem_cons_of_mem _ he)
    · cases List.mem_singleton.mp hdeed
      exact (hne e he).symm

open ValkeyOperator.Action

theorem createBackup_triple {fault : Option Fault} {bk : StoredBackup} {P : SchedulerWorld → Prop}
    {Q : Bool → SchedulerWorld → Prop} {E : SchedulerWorld → Prop}
    (hnew : ∀ v, P v → v.has bk = false → Q true (v.store bk))
    (hold : ∀ v, P v → v.has bk = true → Q false v) (hfail : ∀ v, P v → E v)
    (hlost : ∀ e v, fault = some (.lost e) → P v → E (v.store bk)) :
    Triple P (createBackup fault bk) Q E := by
  intro v hv
  have he := hfail v hv
  unfold createBackup
  rcases fault with - | ⟨e⟩ | ⟨e⟩
  · cases hhas : v.has bk with
    | false => exact hnew v hv hhas
    | true => exact hold v hv hhas
  · exact he
  · cases hhas : v.has bk with
    | false => exact hlost e v rfl hv
    | true => exact he

/-- Firing a schedule stores its backup and nothing else, and only if no run of it is active. -/
theorem fireSchedule_triple (hanswered : faults.Answered)
    (hfind : findSchedule cluster d.name = some sched) :
    Triple (· = v) (fireSchedule layouts faults cluster sched d.slot)
      (Attempted layouts cluster sched d v) (· = v) := by
  have hskip : ∀ result ≠ FireResult.created, Attempted layouts cluster sched d v result v := by
    refine fun result hresult => ⟨?_, fun hcreated => absurd hcreated hresult⟩
    have hnone : (Deed.acted cluster.key d v.clock result).backup layouts
        cluster = none := by
      cases result with
      | created => exact absurd rfl hresult
      | overlap => rfl
      | deduped => rfl
    rw [hnone, Option.toList_none, List.append_nil]
  unfold fireSchedule scheduleHasActiveRun
  refine (Triple.read fun _ hv _ => hv).mapErr.bind fun running => ?_
  split
  · exact .pure fun u hu => hu.1 ▸ hskip .overlap (by decide)
  · rename_i hrunning
    refine (Triple.read fun _ hv _ => hv.1).mapErr.bind fun _ => ?_
    refine (createBackup_triple
      (Q := fun made => Attempted layouts cluster sched d v (if made then .created else .deduped))
      ?_ (fun u hu _ => ?_) (fun u hu => hu.1.1)
      fun e _ hlost => absurd hlost (hanswered _ e)).mapErr.bind fun _ => .pure fun _ hu => hu
    case refine_2 =>
      rw [hu.1.1]
      exact hskip .deduped (by decide)
    rintro u ⟨⟨rfl, hidle⟩, -⟩ hhas
    refine ⟨?_, fun _ => ⟨fun b hb hof => ?_, hhas⟩⟩
    · rw [SchedulerWorld.store, if_pos rfl, Deed.backup, hfind]
      rfl
    · refine Bool.eq_false_iff.mpr fun hactive => hrunning ?_
      rw [hidle]
      exact List.any_eq_true.mpr ⟨b, List.mem_filter.mpr ⟨hb, hof⟩, hactive⟩

theorem logged_triple {key : Str} {fire : Action SchedulerWorld FireResult}
    {Q : FireResult → SchedulerWorld → Prop} (h : Triple (· = v) fire Q (· = v)) :
    Triple (· = v) (logged key d fire) Q (· = v) := by
  intro w hw
  have h := h w hw
  unfold logged
  cases hr : fire w with
  | ok result u =>
    rw [hr] at h
    exact h
  | error e u =>
    rw [hr] at h
    rw [show u = w from h.trans hw.symm]
    exact (if_pos rfl).trans hw

theorem fireEach_triple (hanswered : faults.Answered) {ds : List Due}
    (hnames : (ds.map (·.name)).Nodup)
    (hds : ∀ d ∈ ds, IsDue slotsOf w.clock (w.schedules cluster.key) d)
    (created : Nat) :
    Triple (Ticking slotsOf layouts cluster parse w ds) (fireEach layouts faults cluster ds created)
      (fun _ => Ticking slotsOf layouts cluster parse w []) (Ticking slotsOf layouts cluster parse w []) := by
  induction ds generalizing created with
  | nil => exact .pure fun _ hv => hv
  | cons d rest ih =>
    obtain ⟨hdue, hds⟩ := List.forall_mem_cons.mp hds
    obtain ⟨hrest, hnames⟩ := List.nodup_cons.mp hnames
    have ih := ih hnames hds
    unfold fireEach
    split
    · exact (ih created).pre fun v hv => hv.of_subset (List.subset_cons_self _ _)
    · rename_i sched hfind
      refine Triple.bind (Q := fun result u => ∃ v, Ticking slotsOf layouts cluster parse w (d :: rest) v ∧
        Attempted layouts cluster sched d v result u) (fun v hv => ?_) fun result => ?_
      · refine (logged_triple (fireSchedule_triple hanswered hfind)).post
          (fun _ _ hfire => ⟨v, hv, hfire⟩) (fun u hu => ?_) v rfl
        exact hu ▸ hv.of_subset (List.nil_subset _)
      · refine Triple.bind (.modify ?_) fun _ => ih _
        rintro u ⟨v, hv, hfire⟩
        exact hv.act hdue hrest hfind hfire

end Tick

/-! ## Every run -/

section Runs
variable {parse : Str → Except Err CronSchedule} {layouts : TimeLayouts}
  {slotsOf : CronSchedule → Int → Prop} {w : SchedulerWorld}

/-- A tick comes to an end and keeps the log in order. -/
theorem tickAt_ticking
    (hcron : ∀ text spec, parse text = .ok spec → FirstAfter (slotsOf spec) spec.next)
    (h : Punctual parse slotsOf w) (hanswered : faults.Answered) (cluster : ScheduledCluster)
    (hnow : w.clock ≤ now) :
    (∃ fuel, (tick layouts faults cluster fuel { w with clock := now }).isSome = true) ∧
      Ticking slotsOf layouts cluster parse { w with clock := now } []
        (w.tickAt layouts faults cluster now) := by
  have hstart := h.tickTo hnow
  obtain ⟨ds, hds, hnames, hdue⟩ :=
    dues_isDue now fun name st hst =>
      hcron _ _ (h.known cluster.key name st hst)
  have htick : tick layouts faults cluster
      (searchFuel now (w.schedules cluster.key)) { w with clock := now } =
      some (fireEach layouts faults cluster ds 0) := by
    rw [tick]
    exact congrArg (Option.map _) hds
  refine ⟨⟨_, by rw [htick]; rfl⟩, ?_⟩
  rw [SchedulerWorld.tickAt, htick]
  exact (fireEach_triple hanswered hnames hdue 0).after (.start hstart hdue)

theorem Punctual.step (hcron : ∀ text spec, parse text = .ok spec → FirstAfter (slotsOf spec) spec.next)
    {e : SchedulerEvent} (hforward : w.Forward e) (hanswered : e.Answered)
    (h : Punctual parse slotsOf w) :
    Punctual parse slotsOf (w.step parse layouts e) := by
  cases e with
  | sync cluster now => exact h.syncAt hforward cluster
  | tick faults cluster now => exact (tickAt_ticking hcron h hanswered cluster hforward).2.punctual
  | restart => exact h.restart
  | others backups => exact h.others backups

/-- Whatever is synchronised and ticked in whatever order, as long as no answer to a creation is
lost: what a schedule acts on ascends from its registration on and is the latest slot each
time, and a tick fires a schedule once at most, and not while a run of it is active. -/
theorem schedule_fires_once
    (hcron : ∀ text spec, parse text = .ok spec → FirstAfter (slotsOf spec) spec.next)
    {start : SchedulerWorld} (hstates : start.states = ∅) (hlog : start.log = [])
    (hrun : Runs (SchedulerWorld.step parse layouts) (fun w e => w.Forward e ∧ e.Answered) start w) :
    w.log.Pairwise Deed.Before ∧ (∀ d ∈ w.log, d.IsLatest slotsOf) ∧
      ∀ faults cluster now, faults.Answered → w.clock ≤ now →
        (∃ fuel, (tick layouts faults cluster fuel { w with clock := now }).isSome = true) ∧
        ∃ acts, Ticked slotsOf layouts cluster { w with clock := now }
          (w.step parse layouts (.tick faults cluster now)) acts := by
  have h : Punctual parse slotsOf w :=
    hrun.preserves (fun _ _ hallowed h => h.step hcron hallowed.1 hallowed.2)
      (Punctual.initial hstates hlog)
  refine ⟨h.ordered, h.latest, fun faults cluster now hanswered hnow => ?_⟩
  obtain ⟨hends, hticking⟩ := tickAt_ticking hcron h hanswered cluster hnow
  obtain ⟨acts, hticked, -⟩ := hticking.ticked
  exact ⟨hends, acts, hticked⟩

end Runs

def hourly : CronSchedule := ⟨fun t => (t / 3600 + 1) * 3600⟩

theorem hourly_firstAfter : FirstAfter (fun s => s % 3600 = 0) hourly.next where
  slot t := by simp only [hourly]; omega
  after t := by simp only [hourly]; omega
  first t s hs ht := by simp only [hourly]; omega

def hourlyCluster : ScheduledCluster where
  ns := []
  name := ['c']
  schedule := [⟨['h'], ['@'], [], 0⟩]

def hourlyStep : SchedulerWorld → SchedulerEvent → SchedulerWorld :=
  SchedulerWorld.step (fun _ => .ok hourly) ⟨fun t => (toString t).toList, fun t => (toString t).toList⟩

/-- Registered at 5000, ticked late: the slot at 10800 makes up for the one at 7200, and is
not acted on again. -/
def afterLateTicks : SchedulerWorld :=
  [.sync hourlyCluster 5000, .tick {} hourlyCluster 12000, .tick {} hourlyCluster 13000,
    .tick {} hourlyCluster 15000].foldl hourlyStep {}

theorem schedule_fires_once_late : afterLateTicks.log.map Deed.time = [5000, 10800, 14400] ∧
    afterLateTicks.log.Pairwise Deed.Before ∧
      ∀ d ∈ afterLateTicks.log, d.IsLatest fun _ s => s % 3600 = 0 := by
  have hrun : Runs hourlyStep (fun w e => w.Forward e ∧ e.Answered) {} afterLateTicks :=
    Runs.of_allows ⟨⟨by decide, trivial⟩, ⟨by decide +kernel, fun _ _ h => nomatch h⟩,
      ⟨by decide +kernel, fun _ _ h => nomatch h⟩, ⟨by decide +kernel, fun _ _ h => nomatch h⟩, trivial⟩
  obtain ⟨hordered, hlatest, -⟩ := schedule_fires_once
    (fun _ _ h => Except.ok.inj h ▸ hourly_firstAfter) rfl rfl hrun
  exact ⟨by decide +kernel, hordered, hlatest⟩

/-- The backup of the slot at 10800 is stored while the answer is lost. -/
def afterLostAnswer : SchedulerWorld :=
  [.sync hourlyCluster 5000, .tick { create := fun _ => some (.lost ⟨"timeout", false⟩) }
    hourlyCluster 12000].foldl hourlyStep {}

/-- It is deleted, and the next tick fires the slot again. -/
def afterRepeatedFire : SchedulerWorld :=
  [.others [], .tick {} hourlyCluster 13000].foldl hourlyStep afterLostAnswer

theorem slot_fired_twice :
    afterLostAnswer.backups.map (·.name) = ["c-h-10800".toList] ∧
      afterRepeatedFire.backups.map (·.name) = ["c-h-10800".toList] ∧
      afterRepeatedFire.log.map Deed.time = [5000, 10800, 10800] ∧
      ¬ afterRepeatedFire.log.Pairwise Deed.Before := by
  decide +kernel

end ValkeyOperator.Backup

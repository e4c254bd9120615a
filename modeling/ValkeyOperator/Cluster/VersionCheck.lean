import ValkeyOperator.Backup.Schedule

/-! The window in which a cluster asks for new versions (`perconavalkeycluster/versioncheck.go`).

The registry has one cron per cluster and is searched as the backup schedules are: slot
after slot until the next one is in the future. -/

namespace ValkeyOperator.Cluster
open Text Valkey Backup
open Elapsed

/-! ## The registry -/

structure VcEntry where
  schedule : CronSchedule
  cronText : Str
  lastPoll : Int

abbrev VcRegistry := GoMap Str VcEntry

namespace VcRegistry

def remove (reg : VcRegistry) (key : Str) : VcRegistry := reg.erase key

def sync (parse : Str → Except Err CronSchedule) (reg : VcRegistry) (key cronText : Str) (now : Int) :
    Except Err VcRegistry :=
  let existing := reg.lookup key
  if existing.any (fun e => e.cronText = cronText) then .ok reg
  else
    match parse cronText with
    | .error e => .error (e.wrap ("invalid upgradeOptions.schedule " ++ quote cronText))
    | .ok parsed => .ok (reg.insert key
        { schedule := parsed, cronText, lastPoll := existing.elim now (·.lastPoll) })

/-- Whether a slot has elapsed, which is then the new anchor; `none` if the search is not
over after so many steps. -/
def due (fuel : Nat) (reg : VcRegistry) (key : Str) (now : Int) : Option (Bool × VcRegistry) :=
  match reg.lookup key with
  | none => some (false, reg)
  | some e => (lastUpTo e.schedule.next now fuel 0 e.lastPoll).map fun last =>
      if last = 0 then (false, reg) else (true, reg.insert key { e with lastPoll := last })

end VcRegistry

inductive VersionCheckAction where
  | disabled
  | recommended
  | latest
  | literal
deriving DecidableEq

def applyPolicy (apply : Str) : VersionCheckAction :=
  let apply := trimSpace apply
  if apply = [] ∨ apply = "Disabled" then .disabled
  else if apply = "Recommended" then .recommended
  else if apply = "Latest" then .latest
  else .literal

/-- Whether the version service is asked in this pass, and the registry after it. -/
def reconcileVersionCheck (parse : Str → Except Err CronSchedule) (fuel : Nat)
    (ns name apply schedule : Str) (deleting : Bool) (now : Int) (reg : VcRegistry) :
    Option (Except Err Bool × VcRegistry) :=
  let key := clusterKey ns name
  if applyPolicy apply = .disabled ∨ deleting then some (.ok false, reg.remove key)
  else
    match reg.sync parse key schedule now with
    | .error e => some (.error e, reg)
    | .ok reg => (reg.due fuel key now).map fun (polls, reg) => (.ok polls, reg)

/-! ## When the search ends -/

section Ends
variable {st : ScheduleState} {now : Int}

theorem mostRecentElapsedSlot_ends :
    (∃ fuel, (mostRecentElapsedSlot fuel st now).isSome = true) ↔ Ends st.spec.next now st.lastFire := by
  simp only [mostRecentElapsedSlot, Option.isSome_map]
  constructor
  · rintro ⟨fuel, h⟩
    exact ⟨fuel, 0, h⟩
  · rintro ⟨fuel, last, h⟩
    exact ⟨fuel, isSome_lastUpTo_last h⟩

theorem due_ends {reg : VcRegistry} {key : Str} {e : VcEntry} (h : reg.lookup key = some e) :
    (∃ fuel, (reg.due fuel key now).isSome = true) ↔ Ends e.schedule.next now e.lastPoll := by
  simp only [VcRegistry.due, h, Option.isSome_map]
  constructor
  · rintro ⟨fuel, hsome⟩
    exact ⟨fuel, 0, hsome⟩
  · rintro ⟨fuel, last, hsome⟩
    exact ⟨fuel, isSome_lastUpTo_last hsome⟩

variable {cur : ScheduleStates}

theorem duesOf_isSome (fuel : Nat) (names : List Str) :
    (duesOf fuel now cur names).isSome = true ↔
      ∀ name ∈ names, ∀ st, cur.lookup name = some st →
        (mostRecentElapsedSlot fuel st now).isSome = true := by
  induction names with
  | nil => simp [duesOf]
  | cons name rest ih =>
    rw [List.forall_mem_cons, ← ih, duesOf]
    cases hst : cur.lookup name with
    | none => simp
    | some st => rcases hfound : mostRecentElapsedSlot fuel st now with - | - | slot <;> simp [hfound]

theorem dues_ends : (∃ fuel, (dues fuel now cur).isSome = true) ↔
    ∀ name st, cur.lookup name = some st → Ends st.spec.next now st.lastFire := by
  simp only [dues, duesOf_isSome]
  constructor
  · rintro ⟨fuel, h⟩ name st hst
    have hname : name ∈ cur.keys.insertionSort (· ≤ ·) :=
      (List.mem_insertionSort _).mpr (AList.mem_keys.mpr (AList.lookup_isSome.mp (by rw [hst]; rfl)))
    exact mostRecentElapsedSlot_ends.mp ⟨fuel, h name hname st hst⟩
  · intro h
    refine exists_common_fuel (fun name fuel fuel' hle hover st hst => ?_) fun name _ => ?_
    · have := hover st hst
      rw [mostRecentElapsedSlot, Option.isSome_map] at this ⊢
      exact isSome_lastUpTo_mono hle this
    · cases hst : cur.lookup name with
      | none => exact ⟨0, fun st hst => by cases hst⟩
      | some st =>
        obtain ⟨fuel, hover⟩ := mostRecentElapsedSlot_ends.mpr (h name st hst)
        exact ⟨fuel, fun st' hst' => Option.some.inj hst' ▸ hover⟩

/-- The next slot is later, and the zero time stands for none. -/
def CronSchedule.Documented (cron : CronSchedule) : Prop := ∀ t, cron.next t = 0 ∨ t < cron.next t

/-- A search that can end: now is before the zero time, or the cron does not run out of slots
from the anchor to now, or it does not from the zero time on. -/
def CanEnd (cron : CronSchedule) (anchor now : Int) : Prop :=
  now < 0 ∨ ¬ RunsDry cron.next now anchor ∨ ¬ RunsDry cron.next now 0

/-- Schedules are searched to an end, by a tick and by a version check, exactly if their
crons do not send the search back to where it has been. -/
theorem schedule_search_ends_iff (now : Int) :
    (∀ st : ScheduleState, CronSchedule.Documented st.spec →
      ((∃ fuel, (mostRecentElapsedSlot fuel st now).isSome = true) ↔ CanEnd st.spec st.lastFire now)) ∧
    (∀ cur : ScheduleStates,
      (∀ name st, cur.lookup name = some st → CronSchedule.Documented st.spec) →
      ((∃ fuel, (dues fuel now cur).isSome = true) ↔
        ∀ name st, cur.lookup name = some st → CanEnd st.spec st.lastFire now)) ∧
    ∀ (reg : VcRegistry) (key : Str) (e : VcEntry), reg.lookup key = some e →
      CronSchedule.Documented e.schedule →
      ((∃ fuel, (reg.due fuel key now).isSome = true) ↔ CanEnd e.schedule e.lastPoll now) := by
  refine ⟨fun st hnext => ?_, fun cur hnext => ?_, fun reg key e he hnext => ?_⟩
  · exact mostRecentElapsedSlot_ends.trans (ends_iff hnext)
  · rw [dues_ends]
    exact forall₃_congr fun name st hst => ends_iff (hnext name st hst)
  · exact (due_ends he).trans (ends_iff hnext)

end Ends

theorem hourly_documented : CronSchedule.Documented hourly := fun t => .inr (hourly_firstAfter.after t)

theorem schedule_search_ends_hourly :
    (∃ fuel, (mostRecentElapsedSlot fuel ⟨hourly, ['@'], 5000⟩ 12000).isSome = true) ∧
      CanEnd hourly 5000 12000 := by
  have hiff := (schedule_search_ends_iff 12000).1 ⟨hourly, ['@'], 5000⟩ hourly_documented
  have hends : ∃ fuel, (mostRecentElapsedSlot fuel ⟨hourly, ['@'], 5000⟩ 12000).isSome = true :=
    ⟨3, by decide⟩
  exact ⟨hends, hiff.mp hends⟩

/-- The thirtieth of February: there is no slot. -/
def never : CronSchedule := ⟨fun _ => 0⟩

/-- Neither a tick nor a version check gets over a cron without a slot. -/
theorem schedule_search_never_ends : CronSchedule.Documented never ∧
    (¬ ∃ fuel, (mostRecentElapsedSlot fuel ⟨never, ['f'], 5000⟩ 12000).isSome = true) ∧
    (¬ ∃ fuel, (dues fuel 12000 (AList.singleton ['f'] ⟨never, ['f'], 5000⟩)).isSome = true) ∧
    ¬ ∃ fuel, (VcRegistry.due fuel (AList.singleton ['k'] ⟨never, ['f'], 5000⟩) ['k'] 12000).isSome =
      true := by
  have hloop : ¬ Ends never.next 12000 5000 :=
    not_ends_of_invariant (P := fun _ => True) (fun _ _ => ⟨(by decide : (0 : Int) ≤ 12000), trivial⟩) trivial
  refine ⟨fun _ => .inl rfl, fun h => hloop (mostRecentElapsedSlot_ends.mp h), fun h => ?_, fun h => ?_⟩
  · exact hloop (dues_ends.mp h ['f'] _ rfl)
  · exact hloop ((due_ends rfl).mp h)

end ValkeyOperator.Cluster

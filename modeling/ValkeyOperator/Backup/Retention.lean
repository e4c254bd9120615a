import Mathlib.Data.Prod.Lex
import ValkeyOperator.Backup.Schedule
import ValkeyOperator.Valkey.Plan

/-! Retention of scheduled backups (`perconavalkeybackup/retention.go`).

Only backups that have succeeded and are not about to be deleted are counted. The newest are
kept, up to the number in the schedule, and the others are surplus. -/

namespace ValkeyOperator.Backup
open Text Valkey Api

/-! ## Selection -/

def completionTime (bk : StoredBackup) : Int := bk.status.completed.getD bk.creationTimestamp

/-- Newest first, and by name in descending order among those of one time. -/
def compareNewest (a b : StoredBackup) : Int :=
  if completionTime a ≠ completionTime b then
    if completionTime b < completionTime a then -1 else 1
  else -compareStr a.name b.name

def isCounted (bk : StoredBackup) : Bool := !bk.deleting && bk.status.state = .succeeded

/-- From the given index on. -/
def surplusFrom (keep keepAge now : Int) : Int → List StoredBackup → List StoredBackup
  | _, [] => []
  | idx, bk :: rest =>
    let overCount := 0 < keep ∧ keep ≤ idx
    let tooOld := 0 < keepAge ∧ keepAge < now - completionTime bk
    if overCount ∨ tooOld then bk :: surplusFrom keep keepAge now (idx + 1) rest
    else surplusFrom keep keepAge now (idx + 1) rest

def selectSurplus (S : Sorter StoredBackup) (items : List StoredBackup) (keep keepAge now : Int) :
    List StoredBackup :=
  surplusFrom keep keepAge now 0 (S.sort compareNewest (items.filter isCounted))

/-! ## The pass -/

structure RetentionFaults where
  list : Option Err := none
  delete : Str → Option Fault := fun _ => none

/-- A backup with finalizers stays until they are gone. -/
def SchedulerWorld.remove (w : SchedulerWorld) (bk : StoredBackup) : SchedulerWorld :=
  { w with backups := w.backups.filterMap fun b =>
      if b.ns = bk.ns ∧ b.name = bk.name then
        if b.finalizers = [] then none else some { b with deleting := true }
      else some b }

/-- Whether there was a backup to delete. -/
def deleteBackup (fault : Option Fault) (bk : StoredBackup) : Action SchedulerWorld Bool := fun w =>
  match fault with
  | none => .ok (w.has bk) (w.remove bk)
  | some (.refused e) => .error e w
  | some (.lost e) => .error e (w.remove bk)

def deleteEach (faults : RetentionFaults) : List StoredBackup → Nat → Action SchedulerWorld Nat
  | [], deleted => pure deleted
  | bk :: rest, deleted => do
    let found ← (deleteBackup (faults.delete bk.name) bk).mapErr
      (Err.wrap ("delete surplus backup " ++ quote bk.name))
    deleteEach faults rest (if found then deleted + 1 else deleted)

/-- The age limit of a schedule: there is none in this version. -/
def parseKeepAge (_cluster : ScheduledCluster) (_schedule : Str) : Except Err Int := .ok 0

def runRetention (S : Sorter StoredBackup) (faults : RetentionFaults) (cluster : ScheduledCluster)
    (schedule : Str) (now : Int) : Action SchedulerWorld Nat :=
  match findSchedule cluster schedule with
  | none => pure 0
  | some sched =>
    match parseKeepAge cluster schedule with
    | .error e => throw e
    | .ok keepAge =>
      if sched.keep ≤ 0 ∧ keepAge = 0 then pure 0
      else do
        let items ← (Action.read faults.list fun w => w.backups.filter (ofSchedule cluster schedule)).mapErr
          (Err.wrap ("list backups for retention of schedule " ++ quote schedule))
        deleteEach faults (selectSurplus S items sched.keep keepAge now) 0

/-! ## What is kept -/

/-- Completed later, or at the same time with the greater name. -/
def Newer (a b : StoredBackup) : Prop :=
  completionTime b < completionTime a ∨ completionTime a = completionTime b ∧ b.name < a.name

theorem compareNewest_neg {a b : StoredBackup} : compareNewest a b < 0 ↔ Newer a b := by
  unfold compareNewest Newer
  split
  · rename_i hne
    split
    · rename_i hlt
      simpa using .inl hlt
    · rename_i hlt
      simpa [hlt] using fun heq => absurd heq hne
  · rename_i heq
    rw [not_not] at heq
    rw [Int.neg_neg_iff_pos, compareStr_pos, or_iff_right heq.not_gt, and_iff_right heq]

theorem compareNewest_pos {a b : StoredBackup} : 0 < compareNewest a b ↔ Newer b a := by
  unfold compareNewest Newer
  split
  · rename_i hne
    split
    · rename_i hlt
      simpa [not_lt.mpr hlt.le] using fun heq => absurd heq.symm hne
    · rename_i hlt
      simpa using .inl (lt_of_le_of_ne (not_lt.mp hlt) hne)
  · rename_i heq
    rw [not_not] at heq
    rw [Int.neg_pos, compareStr_neg, or_iff_right heq.not_lt, and_iff_right heq.symm]

theorem compares_compareNewest : Compares compareNewest := by
  refine .of_lt (fun bk => OrderDual.toDual (toLex (completionTime bk, bk.name))) (fun a b => ?_)
    fun a b => ?_
  · rw [compareNewest_neg, OrderDual.toDual_lt_toDual, Prod.Lex.toLex_lt_toLex, Newer, eq_comm]
  · rw [compareNewest_pos, OrderDual.toDual_lt_toDual, Prod.Lex.toLex_lt_toLex, Newer, eq_comm]

theorem eq_of_compareNewest {items : List StoredBackup} (hnames : (items.map (·.name)).Nodup) :
    ∀ a ∈ items, ∀ b ∈ items, compareNewest a b = 0 → a = b := by
  intro a ha b hb hzero
  refine List.inj_on_of_nodup_map hnames ha hb ?_
  unfold compareNewest at hzero
  split at hzero
  · split at hzero <;> cases hzero
  · exact compareStr_eq_zero (Int.neg_eq_zero.mp hzero)

section Selection
variable (S : Sorter StoredBackup) {items : List StoredBackup} {keep : Int} (now : Int)

theorem surplusFrom_eq_drop (hkeep : 1 ≤ keep) (sorted : List StoredBackup) (idx : Int) :
    surplusFrom keep 0 now idx sorted = sorted.drop (keep - idx).toNat := by
  induction sorted generalizing idx with
  | nil => rw [surplusFrom, List.drop_nil]
  | cons bk rest ih =>
    rw [surplusFrom, ih]
    split
    · rename_i hsurplus
      have hover : keep ≤ idx := by omega
      rw [show (keep - idx).toNat = 0 by omega, show (keep - (idx + 1)).toNat = 0 by omega]
      rfl
    · rename_i hkept
      have hunder : idx < keep := by omega
      rw [show (keep - idx).toNat = (keep - (idx + 1)).toNat + 1 by omega, List.drop_succ_cons]

/-- Without an age limit, the surplus is what comes behind the newest. -/
theorem selectSurplus_eq_drop (hkeep : 1 ≤ keep) :
    selectSurplus S items keep 0 now =
      (S.sort compareNewest (items.filter isCounted)).drop keep.toNat := by
  rw [selectSurplus, surplusFrom_eq_drop now hkeep, sub_zero]

theorem nodup_filter_names (hnames : (items.map (·.name)).Nodup) (p : StoredBackup → Bool) :
    ((items.filter p).map (·.name)).Nodup :=
  hnames.sublist (List.filter_sublist.map _)

/-- The counted backups fall into those that are kept, as many as may be, and the surplus,
each of which is older than all that are kept. -/
theorem selectSurplus_splits (hnames : (items.map (·.name)).Nodup) (hkeep : 1 ≤ keep) :
    ∃ kept, (kept ++ selectSurplus S items keep 0 now).Perm (items.filter isCounted) ∧
      (kept.length : Int) = min keep (items.filter isCounted).length ∧
      ∀ a ∈ kept, ∀ b ∈ selectSurplus S items keep 0 now, Newer a b := by
  have hperm := S.perm compareNewest (items.filter isCounted)
  have hapart := eq_of_compareNewest (nodup_filter_names hnames isCounted)
  have hnodup : (S.sort compareNewest (items.filter isCounted)).Nodup :=
    hperm.nodup_iff.mpr (List.Nodup.of_map _ (nodup_filter_names hnames isCounted))
  have hsorted := S.sorted compareNewest compares_compareNewest (items.filter isCounted)
  rw [selectSurplus_eq_drop S now hkeep]
  refine ⟨(S.sort compareNewest (items.filter isCounted)).take keep.toNat, ?_, ?_, ?_⟩
  · rwa [List.take_append_drop]
  · rw [List.length_take, hperm.length_eq]
    omega
  · intro a ha b hb
    rw [← List.take_append_drop keep.toNat (S.sort _ _)] at hsorted hnodup
    have hle := (List.pairwise_append.mp hsorted).2.2 a ha b hb
    have hne : a ≠ b := (List.nodup_append.mp hnodup).2.2 a ha b hb
    refine compareNewest_neg.mp (lt_of_le_of_ne hle fun hzero => hne ?_)
    exact hapart a (S.mem_sort.mp (List.mem_of_mem_take ha)) b
      (S.mem_sort.mp (List.mem_of_mem_drop hb)) hzero

/-- A list without the surplus, or with it marked for deletion. -/
def Cleared (surplus : List StoredBackup) (clear : StoredBackup → Option StoredBackup)
    (items : List StoredBackup) : Prop :=
  ∀ bk ∈ items, (bk ∉ surplus → clear bk = some bk) ∧
    (bk ∈ surplus → ∀ left, clear bk = some left → left.deleting = true)

theorem counted_cleared {surplus : List StoredBackup} {clear : StoredBackup → Option StoredBackup}
    (h : Cleared surplus clear items) :
    (items.filterMap clear).filter isCounted =
      (items.filter isCounted).filter fun bk => decide (bk ∉ surplus) := by
  rw [List.filter_filter, List.filter_filterMap, ← List.filterMap_eq_filter]
  refine List.filterMap_congr fun bk hbk => ?_
  obtain ⟨hkept, hgone⟩ := h bk hbk
  by_cases hmem : bk ∈ surplus
  · rw [Option.guard_eq_none_iff.mpr (by simp [hmem])]
    cases hclear : clear bk with
    | none => rfl
    | some left =>
      have hdeleting := hgone hmem left hclear
      rw [Option.filter_some_neg (by simp [isCounted, hdeleting])]
  · rw [hkept hmem]
    simp [Option.guard, Option.filter_some, hmem]

theorem selectSurplus_cleared (hnames : (items.map (·.name)).Nodup) (hkeep : 1 ≤ keep)
    {clear : StoredBackup → Option StoredBackup}
    (h : Cleared (selectSurplus S items keep 0 now) clear items) (S' : Sorter StoredBackup) (later : Int) :
    selectSurplus S' (items.filterMap clear) keep 0 later = [] := by
  obtain ⟨kept, hperm, hlength, -⟩ := selectSurplus_splits S now hnames hkeep
  rw [selectSurplus_eq_drop S' later hkeep]
  refine List.drop_eq_nil_of_le ?_
  rw [(S'.perm compareNewest _).length_eq, counted_cleared h,
    ← (hperm.filter _).length_eq, List.filter_append]
  have hnone : (selectSurplus S items keep 0 now).filter
      (fun bk => decide (bk ∉ selectSurplus S items keep 0 now)) = [] :=
    List.filter_eq_nil_iff.mpr fun bk hbk => by simpa using hbk
  have hfew := List.length_filter_le (fun bk => decide (bk ∉ selectSurplus S items keep 0 now)) kept
  rw [hnone, List.append_nil]
  omega

/-- Retention is safe and settles: only backups that have succeeded go, the newest stay, in
whatever order they are listed, and there is nothing left to do afterwards. -/
theorem selectSurplus_keeps_newest (hnames : (items.map (·.name)).Nodup) (hkeep : 1 ≤ keep) :
    (∀ bk ∈ selectSurplus S items keep 0 now,
      bk ∈ items ∧ bk.status.state = .succeeded ∧ bk.deleting = false) ∧
    (∃ kept, (kept ++ selectSurplus S items keep 0 now).Perm (items.filter isCounted) ∧
      (kept.length : Int) = min keep (items.filter isCounted).length ∧
      ∀ a ∈ kept, ∀ b ∈ selectSurplus S items keep 0 now, Newer a b) ∧
    (∀ (S' : Sorter StoredBackup) (reordered : List StoredBackup), reordered.Perm items →
      selectSurplus S' reordered keep 0 now = selectSurplus S items keep 0 now) ∧
    ∀ (S' : Sorter StoredBackup) (clear : StoredBackup → Option StoredBackup) (later : Int),
      Cleared (selectSurplus S items keep 0 now) clear items →
      selectSurplus S' (items.filterMap clear) keep 0 later = [] := by
  have hsplits := selectSurplus_splits S now hnames hkeep
  refine ⟨fun bk hbk => ?_, hsplits, fun S' reordered hperm => ?_, fun S' clear later hcleared => ?_⟩
  · obtain ⟨kept, hperm, -⟩ := hsplits
    obtain ⟨hmem, hcounted⟩ := List.mem_filter.mp (hperm.mem_iff.mp (List.mem_append_right kept hbk))
    simpa [isCounted, hmem, and_comm] using hcounted
  · rw [selectSurplus, selectSurplus]
    congr 1
    have hapart := eq_of_compareNewest (nodup_filter_names hnames isCounted)
    exact (S.sort_unique S' compares_compareNewest (hperm.filter isCounted).symm hapart).symm
  · exact selectSurplus_cleared S now hnames hkeep hcleared S' later

end Selection

/-- Two backups of one time, an older one and a failed one; one is to be kept. -/
def fourBackups : List StoredBackup :=
  let done (name : Str) (state : BackupState) (time : Int) : StoredBackup :=
    { name, spec := { clusterName := ['c'] }, status := { state, completed := some time } }
  [done ['a'] .succeeded 7, done ['b'] .failed 9, done ['d'] .succeeded 7, done ['e'] .succeeded 5]

theorem selectSurplus_keeps_newest_fourBackups :
    (selectSurplus .insertion fourBackups 1 0 0).map (·.name) = [['a'], ['e']] ∧
      ∀ bk ∈ selectSurplus .insertion fourBackups 1 0 0,
        bk ∈ fourBackups ∧ bk.status.state = .succeeded ∧ bk.deleting = false :=
  ⟨by decide, (selectSurplus_keeps_newest .insertion 0 (by decide) (by decide)).1⟩

/-! ## What a pass leaves alone -/

section Pass
open ValkeyOperator.Action
variable {b : StoredBackup}

theorem deleteBackup_spares {bk : StoredBackup} (fault : Option Fault)
    (hother : ¬ (b.ns = bk.ns ∧ b.name = bk.name)) :
    Triple (fun w => b ∈ w.backups) (deleteBackup fault bk) (fun _ w => b ∈ w.backups)
      (fun w => b ∈ w.backups) := by
  intro w hb
  have hleft : b ∈ (w.remove bk).backups :=
    List.mem_filterMap.mpr ⟨b, hb, by rw [if_neg hother]⟩
  rcases fault with - | ⟨e⟩ | ⟨e⟩
  exacts [hleft, hb, hleft]

theorem deleteEach_spares (faults : RetentionFaults) {surplus : List StoredBackup}
    (hother : ∀ bk ∈ surplus, ¬ (b.ns = bk.ns ∧ b.name = bk.name)) (deleted : Nat) :
    Triple (fun w => b ∈ w.backups) (deleteEach faults surplus deleted) (fun _ w => b ∈ w.backups)
      (fun w => b ∈ w.backups) := by
  induction surplus generalizing deleted with
  | nil => exact .pure fun _ hb => hb
  | cons bk rest ih =>
    obtain ⟨hbk, hrest⟩ := List.forall_mem_cons.mp hother
    unfold deleteEach
    exact (deleteBackup_spares _ hbk).mapErr.bind fun _ => ih hrest _

/-- Whatever fails, a pass touches no backup but the surplus it has selected. -/
theorem runRetention_spares (S : Sorter StoredBackup) (faults : RetentionFaults)
    (cluster : ScheduledCluster) (schedule : Str) (now : Int) {w : SchedulerWorld}
    (hids : (w.backups.map fun bk => (bk.ns, bk.name)).Nodup) (hb : b ∈ w.backups)
    (hkept : ∀ sched, findSchedule cluster schedule = some sched → 1 ≤ sched.keep →
      b ∉ selectSurplus S (w.backups.filter (ofSchedule cluster schedule)) sched.keep 0 now) :
    b ∈ ((runRetention S faults cluster schedule now).after w).backups := by
  refine Triple.after (P := (· = w)) (E := fun w => b ∈ w.backups) ?_ rfl
  unfold runRetention
  cases hfind : findSchedule cluster schedule with
  | none => exact .pure fun v hv => hv ▸ hb
  | some sched =>
    dsimp only [parseKeepAge]
    split
    · exact .pure fun v hv => hv ▸ hb
    · rename_i hlimited
      have hkeep : 1 ≤ sched.keep := by omega
      refine (Triple.read fun v hv _ => hv ▸ hb).mapErr.bind fun items => ?_
      rintro v ⟨rfl, rfl⟩
      refine deleteEach_spares faults (fun bk hbk hsame => hkept sched hfind hkeep ?_) 0 v hb
      -- a backup of the same name is the same backup
      rw [selectSurplus_eq_drop S now hkeep] at hbk
      have hitem := (List.mem_filter.mp (S.mem_sort.mp (List.mem_of_mem_drop hbk))).1
      have heq : b = bk := List.inj_on_of_nodup_map hids hb (List.mem_filter.mp hitem).1
        (Prod.ext hsame.1 hsame.2)
      rw [heq, selectSurplus_eq_drop S now hkeep]
      exact hbk

end Pass

theorem runRetention_spares_fourBackups :
    let cluster : ScheduledCluster := ⟨[], ['c'], false, [⟨['s'], [], [], 1⟩]⟩
    let labels := ((∅ : StrMap).insert labelCluster ['c']).insert labelBackupSchedule ['s']
    let w : SchedulerWorld := { backups := fourBackups.map ({ · with labels }) }
    ∃ b ∈ ((runRetention .insertion {} cluster ['s'] 0).after w).backups, b.name = ['d'] := by
  intro cluster labels w
  refine ⟨_, runRetention_spares .insertion {} cluster ['s'] 0 (by decide)
    (List.mem_of_getElem? (i := 2) rfl) ?_, rfl⟩
  intro sched hfind _
  cases hfind
  decide

end ValkeyOperator.Backup

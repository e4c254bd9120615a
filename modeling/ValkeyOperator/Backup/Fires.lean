import ValkeyOperator.Backup.Schedule
import ValkeyOperator.Lib.Calendar

/-! The names of scheduled backups (`scheduledBackupName` of `perconavalkeybackup/schedule.go`).

A fire is told from another by the name of its backup: one whose name is taken is passed
over as a duplicate. The time at the end of a name can be read back, but what stands before
it does not say where the cluster's name ends and the schedule's begins. -/

namespace ValkeyOperator.Backup
open Text Valkey

/-- How Go writes UTC times in the two layouts. -/
def utcLayouts : TimeLayouts where
  stamp := Calendar.compact
  rfc3339 := Calendar.rfc3339

/-- A slot of a schedule that is due, in seconds after the zero time. -/
structure Fire where
  cluster : ScheduledCluster
  sched : ScheduleSpec
  slot : Nat

namespace Fire

/-- What a fire is a fire of. -/
def key (f : Fire) : Str × Str × Nat := (f.cluster.name, f.sched.name, f.slot)

def name (f : Fire) : Str := scheduledBackupName utcLayouts f.cluster.name f.sched.name f.slot

/-- The cluster's name of `b` goes on where that of `a` ends, with the first words of the
schedule's name of `a`. -/
def Straddles (a b : Fire) : Prop :=
  ∃ words, b.cluster.name = a.cluster.name ++ '-' :: words ∧ a.sched.name = words ++ '-' :: b.sched.name

/-- A slot at which two fires are confused. -/
def Confused (a b : Fire) : Prop := a.slot = b.slot ∧ (Straddles a b ∨ Straddles b a)

end Fire

/-! ## Names -/

theorem dash_not_mem_compact (slot : Nat) : '-' ∉ Calendar.compact slot := fun h =>
  absurd (Calendar.isDigit_of_mem_compact (Int.natCast_nonneg slot) h) (by decide)

/-- Texts with the same last dash agree before and behind it. -/
theorem append_dash_inj {s s' t t' : Str} (ht : '-' ∉ t) (ht' : '-' ∉ t')
    (h : s ++ '-' :: t = s' ++ '-' :: t') : s = s' ∧ t = t' := by
  have hrev : t.reverse ++ '-' :: s.reverse = t'.reverse ++ '-' :: s'.reverse := by
    simpa using congrArg List.reverse h
  have hcut := congrArg (cut '-') hrev
  rw [cut_append (by simpa using ht), cut_append (by simpa using ht')] at hcut
  obtain ⟨hend, hfront⟩ := Prod.mk.inj hcut
  exact ⟨List.reverse_injective (Option.some.inj hfront), List.reverse_injective hend⟩

/-- Two joined names are the same text if the parts are, or one joint lies within the other's
second part. -/
theorem joined_eq_iff {c s c' s' : Str} : c ++ '-' :: s = c' ++ '-' :: s' ↔
    (c = c' ∧ s = s') ∨ (∃ words, c' = c ++ '-' :: words ∧ s = words ++ '-' :: s') ∨
      ∃ words, c = c' ++ '-' :: words ∧ s' = words ++ '-' :: s := by
  rw [List.append_eq_append_iff]
  constructor
  · rintro (⟨u, rfl, hu⟩ | ⟨u, rfl, hu⟩)
    · cases u with
      | nil => exact .inl ⟨(List.append_nil _).symm, (List.cons.inj hu).2⟩
      | cons d words =>
        obtain ⟨rfl, hs⟩ := List.cons.inj hu
        exact .inr (.inl ⟨words, rfl, hs⟩)
    · cases u with
      | nil => exact .inl ⟨List.append_nil _, (List.cons.inj hu).2.symm⟩
      | cons d words =>
        obtain ⟨rfl, hs⟩ := List.cons.inj hu
        exact .inr (.inr ⟨words, rfl, hs⟩)
  · rintro (⟨rfl, rfl⟩ | ⟨words, rfl, rfl⟩ | ⟨words, rfl, rfl⟩)
    · exact .inl ⟨[], by simp⟩
    · exact .inl ⟨'-' :: words, by simp⟩
    · exact .inr ⟨'-' :: words, by simp⟩

theorem Fire.name_eq_iff {a b : Fire} :
    a.name = b.name ↔ a.key = b.key ∨ a.Confused b := by
  have hname : ∀ f : Fire, f.name =
      (f.cluster.name ++ '-' :: f.sched.name) ++ '-' :: Calendar.compact f.slot := by
    intro f
    simp [Fire.name, scheduledBackupName, utcLayouts]
  have hjoined : a.name = b.name ↔
      a.cluster.name ++ '-' :: a.sched.name = b.cluster.name ++ '-' :: b.sched.name ∧
        a.slot = b.slot := by
    rw [hname, hname]
    constructor
    · intro h
      obtain ⟨hfront, hstamp⟩ :=
        append_dash_inj (dash_not_mem_compact _) (dash_not_mem_compact _) h
      exact ⟨hfront, Int.natCast_inj.mp (Calendar.compact_injective hstamp)⟩
    · rintro ⟨hfront, hslot⟩
      rw [hfront, hslot]
  rw [hjoined, joined_eq_iff, Fire.key, Fire.key, Prod.mk.injEq, Prod.mk.injEq, Fire.Confused,
    Fire.Straddles, Fire.Straddles]
  constructor
  · rintro ⟨⟨hcluster, hsched⟩ | hstraddles, hslot⟩
    exacts [.inl ⟨hcluster, hsched, hslot⟩, .inr ⟨hslot, hstraddles⟩]
  · rintro (⟨hcluster, hsched, hslot⟩ | ⟨hslot, hstraddles⟩)
    exacts [⟨.inl ⟨hcluster, hsched⟩, hslot⟩, ⟨.inr hstraddles, hslot⟩]

/-- A joint at another place belongs to another cluster. -/
theorem Fire.Confused.key_ne {a b : Fire} (h : a.Confused b) : a.key ≠ b.key := by
  intro heq
  have hcluster : a.cluster.name = b.cluster.name := (Prod.mk.inj heq).1
  rcases h.2 with ⟨words, hc, -⟩ | ⟨words, hc, -⟩
  · rw [hcluster] at hc
    simp at hc
  · rw [hcluster] at hc
    simp at hc

/-! ## Duplicates -/

open ValkeyOperator.Action

theorem taken_of_deduped {layouts : TimeLayouts} {faults : TickFaults} {cluster : ScheduledCluster}
    {sched : ScheduleSpec} {slot : Int} {w : SchedulerWorld}
    (h : (fireSchedule layouts faults cluster sched slot).outcome w = .ok .deduped) :
    ∃ bk ∈ w.backups, bk.ns = cluster.ns ∧
      bk.name = scheduledBackupName layouts cluster.name sched.name slot := by
  have hfire : Triple (· = w) (fireSchedule layouts faults cluster sched slot)
      (fun result _ => result = .deduped → w.has (scheduledBackup layouts cluster sched slot) = true)
      (fun _ => True) := by
    unfold fireSchedule scheduleHasActiveRun
    refine (Triple.read fun _ _ _ => trivial).mapErr.bind fun running => ?_
    split
    · exact .pure fun _ _ hresult => by cases hresult
    · refine (Triple.read fun _ _ _ => trivial).mapErr.bind fun _ => ?_
      refine (createBackup_triple (Q := fun made _ => made = false →
        w.has (scheduledBackup layouts cluster sched slot) = true)
        (fun _ _ _ hmade => by cases hmade) (fun v hv hhas _ => ?_) (fun _ _ => trivial)
        fun _ _ _ _ => trivial).mapErr.bind fun made => .pure fun _ hmade hresult => ?_
      · rw [← hv.1.1]
        exact hhas
      · cases made with
        | false => exact hmade rfl
        | true => cases hresult
  have hhas := hfire.returned rfl h rfl
  obtain ⟨bk, hbk, hsame⟩ := List.any_eq_true.mp hhas
  rw [Bool.and_eq_true, decide_eq_true_eq, decide_eq_true_eq] at hsame
  exact ⟨bk, hbk, hsame⟩

/-- In every namespace other fires get other names, and a fire is only passed over as a
duplicate of the same fire, exactly if it is confused with none of the earlier ones. -/
theorem fires_told_apart_iff (earlier : List Fire) (f : Fire) :
    ((∀ a ∈ earlier, a.cluster.ns = f.cluster.ns → a.key ≠ f.key → a.name ≠ f.name) ∧
      ∀ (faults : TickFaults) (w : SchedulerWorld),
        (∀ bk ∈ w.backups, ∃ a ∈ earlier, a.cluster.ns = bk.ns ∧ a.name = bk.name) →
        (fireSchedule utcLayouts faults f.cluster f.sched f.slot).outcome w = .ok .deduped →
        ∃ a ∈ earlier, a.cluster.ns = f.cluster.ns ∧ a.key = f.key) ↔
    ∀ a ∈ earlier, a.cluster.ns = f.cluster.ns → ¬ a.Confused f := by
  constructor
  · rintro ⟨hnames, -⟩ a ha hns hconfused
    exact hnames a ha hns hconfused.key_ne (Fire.name_eq_iff.mpr (.inr hconfused))
  · intro hapart
    have hsame : ∀ a ∈ earlier, a.cluster.ns = f.cluster.ns → a.name = f.name → a.key = f.key :=
      fun a ha hns hname => (Fire.name_eq_iff.mp hname).resolve_right (hapart a ha hns)
    refine ⟨fun a ha hns hkey hname => hkey (hsame a ha hns hname), ?_⟩
    intro faults w hbackups hdeduped
    obtain ⟨bk, hbk, hbkns, hname⟩ := taken_of_deduped hdeduped
    obtain ⟨a, ha, hans, haname⟩ := hbackups bk hbk
    have hns := hans.trans hbkns
    exact ⟨a, ha, hns, hsame a ha hns (haname.trans hname)⟩

/-- The schedule `daily-full` of the cluster `prod`. -/
def prodDailyFull : Fire where
  cluster := { ns := "db", name := "prod", schedule := [] }
  sched := { name := "daily-full", schedule := "0 0 * * *" }
  slot := 63902822400

/-- The schedule `full` of the cluster `prod-daily`, at the same time. -/
def prodDaily : Fire where
  cluster := { ns := "db", name := "prod-daily", schedule := [] }
  sched := { name := "full", schedule := "0 0 * * *" }
  slot := 63902822400

/-- The second cluster gets no backup: its fire counts as a duplicate of the first's. -/
theorem other_cluster_deduped :
    prodDailyFull.key ≠ prodDaily.key ∧ prodDailyFull.name = prodDaily.name ∧
      (fireSchedule utcLayouts {} prodDaily.cluster prodDaily.sched prodDaily.slot).outcome
        ((fireSchedule utcLayouts {} prodDailyFull.cluster prodDailyFull.sched
          prodDailyFull.slot).after {}) = .ok .deduped := by
  decide +kernel

end ValkeyOperator.Backup

import ValkeyOperator.Cluster.VersionCheck

/-! The version-check windows over the lives of their clusters (`Reconcile` of `controller.go`
and `versioncheck.go`).

The window of a cluster is registered and removed by its version check. A pass over a
cluster that is being deleted, or is gone, does not get there: the window stays behind,
and a cluster created again under the name goes on with it. -/

namespace ValkeyOperator.Cluster
open Text Valkey Backup
open Elapsed

variable {registered : GoMap Str Int} {now : Int} {key : Str} {c : WindowCluster}

/-! ## Runs -/

/-- What the version check looks at of a cluster. -/
structure WindowCluster where
  ns : Str
  name : Str
  apply : Str
  schedule : Str
  deleting : Bool := false

/-- A request to the version service, with the time at which its cluster was registered. -/
structure Poll where
  key : Str
  registered : Option Int
  cronText : Str
  time : Int

structure WindowWorld where
  clusters : GoMap Str WindowCluster := ∅
  registry : VcRegistry := ∅
  clock : Nat := 0
  /-- what the last version check of each key has found, since the operator started -/
  checked : GoMap Str VersionCheckAction := ∅
  /-- the first version check that was not Disabled, of each cluster and since then -/
  registered : GoMap Str Int := ∅
  polls : List Poll := []

/-- How far a pass gets. -/
structure WindowPass where
  /-- the defaults, the contract version or the finalizers end it -/
  halted : Bool := false
  /-- the teardown is over -/
  released : Bool := false
  fuel : Nat

inductive WindowEvent where
  | create (ns name apply schedule : Str)
  | edit (key apply schedule : Str)
  | requestDeletion (key : Str)
  /-- a cluster that is being deleted goes, by other hands than the operator's -/
  | vanish (key : Str)
  | pass (key : Str) (env : WindowPass)
  | restart
  | wait (seconds : Nat)

namespace WindowWorld

variable (parse : Str → Except Err CronSchedule)

def drop (w : WindowWorld) (key : Str) : WindowWorld := { w with clusters := w.clusters.erase key }

/-- The time of registration after a version check. -/
def noteRegistered (w : WindowWorld) (key : Str) (c : WindowCluster) : Except Err Bool → GoMap Str Int
  | .error _ => w.registered
  | .ok _ =>
    if applyPolicy c.apply = .disabled then w.registered.erase key
    else if (w.registered.lookup key).isSome then w.registered
    else w.registered.insert key w.clock

/-- A check that does not end leaves no trace. -/
def versionCheck (w : WindowWorld) (key : Str) (c : WindowCluster) (fuel : Nat) : WindowWorld :=
  match reconcileVersionCheck parse fuel c.ns c.name c.apply c.schedule c.deleting w.clock w.registry with
  | none => w
  | some (result, registry) =>
    let registered := w.noteRegistered key c result
    { w with
      registry := registry
      checked := w.checked.insert key (applyPolicy c.apply)
      registered := registered
      polls := match result with
        | .ok true => w.polls ++ [⟨key, registered.lookup key, c.schedule, w.clock⟩]
        | _ => w.polls }

def pass (w : WindowWorld) (key : Str) (env : WindowPass) : WindowWorld :=
  match w.clusters.lookup key with
  | none => w
  | some c =>
    if env.halted then w
    else if c.deleting then (if env.released then w.drop key else w)
    else w.versionCheck parse key c env.fuel

def step (w : WindowWorld) : WindowEvent → WindowWorld
  | .create ns name apply schedule =>
    let key := clusterKey ns name
    if (w.clusters.lookup key).isSome then w
    else { w with
           clusters := w.clusters.insert key { ns, name, apply, schedule }
           registered := w.registered.erase key }
  | .edit key apply schedule =>
    match w.clusters.lookup key with
    | none => w
    | some c => { w with clusters := w.clusters.insert key { c with apply, schedule } }
  | .requestDeletion key =>
    match w.clusters.lookup key with
    | none => w
    | some c => { w with clusters := w.clusters.insert key { c with deleting := true } }
  | .vanish key =>
    match w.clusters.lookup key with
    | none => w
    | some c => if c.deleting then w.drop key else w
  | .pass key env => w.pass parse key env
  | .restart => { w with registry := ∅, checked := ∅, registered := ∅ }
  | .wait seconds => { w with clock := w.clock + seconds }

end WindowWorld

/-- The deletion of a cluster is requested only after a version check that found it
Disabled, or before its first one since the operator started. -/
def ChecksOff (w : WindowWorld) : WindowEvent → Prop
  | .requestDeletion key => ∀ action, w.checked.lookup key = some action → action = .disabled
  | _ => True

/-- No slot lies between a time and the next one. -/
def CronSchedule.Earliest (cron : CronSchedule) : Prop :=
  ∀ s t, s ≤ t → t < cron.next s → cron.next t = cron.next s

/-! ## One version check -/

section Check

variable {parse : Str → Except Err CronSchedule} {reg reg' : VcRegistry} {key : Str}

theorem sync_ok {cronText : Str} (h : reg.sync parse key cronText now = .ok reg')
    (hparsed : ∀ e, reg.lookup key = some e → parse e.cronText = .ok e.schedule) :
    (∃ e, reg'.lookup key = some e ∧ e.cronText = cronText ∧ parse cronText = .ok e.schedule ∧
      (reg.lookup key = none ∧ e.lastPoll = now ∨
        ∃ old, reg.lookup key = some old ∧ e.lastPoll = old.lastPoll)) ∧
      ∀ other, other ≠ key → reg'.lookup other = reg.lookup other := by
  unfold VcRegistry.sync at h
  dsimp only at h
  split at h
  · rename_i hsame
    cases h
    obtain ⟨e, he, htext⟩ : ∃ e, reg.lookup key = some e ∧ e.cronText = cronText := by
      cases hlookup : reg.lookup key with
      | none => simp [hlookup] at hsame
      | some e => exact ⟨e, rfl, by simpa [hlookup] using hsame⟩
    exact ⟨⟨e, he, htext, htext ▸ hparsed e he, .inr ⟨e, he, rfl⟩⟩, fun _ _ => rfl⟩
  · split at h
    · cases h
    · rename_i parsed hparse
      cases h
      refine ⟨⟨_, AList.lookup_insert _, rfl, hparse, ?_⟩,
        fun other hother => AList.lookup_insert_ne hother⟩
      cases hlookup : reg.lookup key with
      | none => exact .inl ⟨rfl, rfl⟩
      | some old => exact .inr ⟨old, rfl, rfl⟩

theorem due_some {fuel : Nat} {polls : Bool} {e : VcEntry}
    (h : reg.due fuel key now = some (polls, reg')) (he : reg.lookup key = some e) :
    polls = false ∧ reg' = reg ∨
      polls = true ∧ ∃ last, reg' = reg.insert key { e with lastPoll := last } ∧
        e.schedule.next e.lastPoll ≤ now ∧ last ≤ now ∧ now < e.schedule.next last := by
  unfold VcRegistry.due at h
  rw [he] at h
  obtain ⟨last, hlast, hresult⟩ := Option.map_eq_some_iff.mp h
  split at hresult
  · cases hresult
    exact .inl ⟨rfl, rfl⟩
  · rename_i hslot
    cases hresult
    rcases lastUpTo_eq_some hlast with ⟨hnone, -⟩ | hfound
    · exact absurd hnone hslot
    · exact .inr ⟨rfl, last, rfl, hfound⟩

/-- The three ways of a version check that ends. -/
theorem reconcileVersionCheck_some {fuel : Nat} {result : Except Err Bool}
    (hkey : clusterKey c.ns c.name = key) (halive : c.deleting = false)
    (h : reconcileVersionCheck parse fuel c.ns c.name c.apply c.schedule c.deleting now reg =
      some (result, reg')) :
    applyPolicy c.apply = .disabled ∧ result = .ok false ∧ reg' = reg.erase key ∨
      applyPolicy c.apply ≠ .disabled ∧
        ((∃ e, result = .error e) ∧ reg' = reg ∨
          ∃ synced polls, reg.sync parse key c.schedule now = .ok synced ∧
            synced.due fuel key now = some (polls, reg') ∧ result = .ok polls) := by
  unfold reconcileVersionCheck at h
  rw [hkey, halive] at h
  dsimp only at h
  split at h
  · rename_i hdisabled
    cases h
    exact .inl ⟨by simpa using hdisabled, rfl, rfl⟩
  · rename_i henabled
    refine .inr ⟨by simpa using henabled, ?_⟩
    split at h
    · cases h
      exact .inl ⟨⟨_, rfl⟩, rfl⟩
    · rename_i synced hsync
      obtain ⟨⟨polls, after⟩, hdue, hpair⟩ := Option.map_eq_some_iff.mp h
      cases hpair
      exact .inr ⟨synced, polls, hsync, hdue, rfl⟩

/-- A window that was last polled before now, not before the registration. -/
structure WindowAnchored (registered : Option Int) (now : Int) (e : VcEntry) : Prop where
  polled : e.lastPoll ≤ now
  registered : ∃ r, registered = some r ∧ r ≤ e.lastPoll

/-- A window that is due has had a slot since the registration, and so has its next anchor. -/
theorem WindowAnchored.due {registered : Option Int} {last : Int} {e : VcEntry}
    (h : WindowAnchored registered now e) (hcron : CronSchedule.Earliest e.schedule)
    (helapsed : e.schedule.next e.lastPoll ≤ now) (hlast : last ≤ now)
    (hfuture : now < e.schedule.next last) :
    WindowAnchored registered now { e with lastPoll := last } ∧
      ∃ r, registered = some r ∧ e.schedule.next r ≤ now := by
  obtain ⟨r, hr, hle⟩ := h.registered
  have hpolled := h.polled
  refine ⟨⟨hlast, r, hr, ?_⟩, r, hr, ?_⟩
  · by_contra hbefore
    have := hcron last e.lastPoll (by dsimp only at hbefore; omega) (by omega)
    omega
  · by_contra hearly
    have := hcron r e.lastPoll hle (by omega)
    omega

end Check

/-! ## What a run keeps -/

/-- A window belongs to a cluster that is not being deleted, whose last version check
was not Disabled. -/
structure EntryKept (parse : Str → Except Err CronSchedule) (c : Option WindowCluster)
    (checked : Option VersionCheckAction) (registered : Option Int) (now : Int) (e : VcEntry) :
    Prop where
  owned : ∃ owner, c = some owner ∧ owner.deleting = false
  checked : ∃ action, checked = some action ∧ action ≠ .disabled
  parsed : parse e.cronText = .ok e.schedule
  anchored : WindowAnchored registered now e

/-- Not polled before the first slot after the registration. -/
def Poll.InTime (parse : Str → Except Err CronSchedule) (p : Poll) : Prop :=
  ∃ r, p.registered = some r ∧ ∀ cron, parse p.cronText = .ok cron → cron.next r ≤ p.time

structure WindowKept (parse : Str → Except Err CronSchedule) (w : WindowWorld) : Prop where
  keyed : ∀ key c, w.clusters.lookup key = some c → clusterKey c.ns c.name = key
  entries : ∀ key e, w.registry.lookup key = some e → EntryKept parse (w.clusters.lookup key)
    (w.checked.lookup key) (w.registered.lookup key) w.clock e
  past : ∀ key r, w.registered.lookup key = some r → r ≤ w.clock
  polled : ∀ p ∈ w.polls, p.InTime parse

section Kept

variable {parse : Str → Except Err CronSchedule} {w : WindowWorld}

theorem WindowKept.replace (h : WindowKept parse w) {clusters : GoMap Str WindowCluster}
    (hkeyed : ∀ key c, clusters.lookup key = some c → clusterKey c.ns c.name = key)
    (howned : ∀ key e, w.registry.lookup key = some e →
      (∃ owner, clusters.lookup key = some owner ∧ owner.deleting = false) ∧
        registered.lookup key = w.registered.lookup key)
    (hpast : ∀ key r, registered.lookup key = some r → r ≤ w.clock) :
    WindowKept parse { w with clusters := clusters, registered := registered } where
  keyed := hkeyed
  entries key e he := by
    obtain ⟨howner, hsame⟩ := howned key e he
    obtain ⟨-, hchecked, hparsed, hanchored⟩ := h.entries key e he
    exact ⟨howner, hchecked, hparsed, hsame ▸ hanchored⟩
  past := hpast
  polled := h.polled

theorem WindowKept.no_window (h : WindowKept parse w)
    (hgone : ∀ c, w.clusters.lookup key = some c → c.deleting = true) :
    w.registry.lookup key = none := by
  rw [Option.eq_none_iff_forall_ne_some]
  intro e he
  obtain ⟨owner, howner, halive⟩ := (h.entries key e he).owned
  rw [hgone owner howner] at halive
  cases halive

theorem WindowKept.insert (h : WindowKept parse w) (c : WindowCluster)
    (hkey : clusterKey c.ns c.name = key)
    (halive : ∀ e, w.registry.lookup key = some e → c.deleting = false)
    (hregistered : ∀ other e, w.registry.lookup other = some e →
      registered.lookup other = w.registered.lookup other)
    (hpast : ∀ key r, registered.lookup key = some r → r ≤ w.clock) :
    WindowKept parse { w with clusters := w.clusters.insert key c, registered := registered } := by
  refine h.replace (fun other d hd => ?_) (fun other e he => ⟨?_, hregistered other e he⟩) hpast
  · by_cases heq : other = key
    · subst heq
      rw [AList.lookup_insert] at hd
      cases hd
      exact hkey
    · exact h.keyed other d (AList.lookup_insert_ne heq ▸ hd)
  · by_cases heq : other = key
    · subst heq
      exact ⟨c, AList.lookup_insert _, halive e he⟩
    · rw [AList.lookup_insert_ne heq]
      exact (h.entries other e he).owned

theorem WindowKept.drop (h : WindowKept parse w) (hc : w.clusters.lookup key = some c)
    (hdeleting : c.deleting = true) : WindowKept parse (w.drop key) := by
  have hnone : w.registry.lookup key = none :=
    h.no_window fun d hd => by cases hc.symm.trans hd; exact hdeleting
  refine h.replace (fun other d hd => ?_) (fun other e he => ⟨?_, rfl⟩) h.past
  · by_cases heq : other = key
    · subst heq
      rw [AList.lookup_erase] at hd
      cases hd
    · exact h.keyed other d (AList.lookup_erase_ne heq ▸ hd)
  · have hne : other ≠ key := by
      rintro rfl
      rw [hnone] at he
      cases he
    rw [AList.lookup_erase_ne hne]
    exact (h.entries other e he).owned

theorem WindowKept.recheck (h : WindowKept parse w) {action : VersionCheckAction}
    {registry : VcRegistry} {polls : List Poll}
    (hregistry : ∀ other, other ≠ key → registry.lookup other = w.registry.lookup other)
    (hregistered : ∀ other, other ≠ key → registered.lookup other = w.registered.lookup other)
    (hentry : ∀ e, registry.lookup key = some e → EntryKept parse (w.clusters.lookup key)
      (some action) (registered.lookup key) w.clock e)
    (hpast : ∀ r, registered.lookup key = some r → r ≤ w.clock)
    (hpolled : ∀ p ∈ polls, p.InTime parse) :
    WindowKept parse { w with registry := registry, checked := w.checked.insert key action,
                              registered := registered, polls := polls } where
  keyed := h.keyed
  entries other e he := by
    dsimp only at he ⊢
    by_cases heq : other = key
    · subst heq
      rw [AList.lookup_insert]
      exact hentry e he
    · rw [AList.lookup_insert_ne heq, hregistered other heq]
      exact h.entries other e (hregistry other heq ▸ he)
  past other r hr := by
    by_cases heq : other = key
    · subst heq
      exact hpast r hr
    · exact h.past other r (hregistered other heq ▸ hr)
  polled := hpolled

theorem noteRegistered_of_enabled (h : WindowKept parse w) (key : Str)
    (henabled : applyPolicy c.apply ≠ .disabled) (polls : Bool) :
    (∀ other, other ≠ key →
        (w.noteRegistered key c (.ok polls)).lookup other = w.registered.lookup other) ∧
      (∃ r, (w.noteRegistered key c (.ok polls)).lookup key = some r ∧ r ≤ w.clock) ∧
      ∀ r, w.registered.lookup key = some r →
        (w.noteRegistered key c (.ok polls)).lookup key = some r := by
  unfold WindowWorld.noteRegistered
  dsimp only
  rw [if_neg henabled]
  split
  · rename_i hsome
    obtain ⟨r, hr⟩ := Option.isSome_iff_exists.mp hsome
    exact ⟨fun _ _ => rfl, ⟨r, hr, h.past key r hr⟩, fun _ hr => hr⟩
  · rename_i hnone
    refine ⟨fun other hother => AList.lookup_insert_ne hother, ⟨_, AList.lookup_insert _, le_refl _⟩,
      fun r hr => ?_⟩
    simp [hr] at hnone

theorem WindowKept.versionCheck (h : WindowKept parse w)
    (hparse : ∀ text cron, parse text = .ok cron → CronSchedule.Earliest cron)
    (hc : w.clusters.lookup key = some c) (halive : c.deleting = false) (fuel : Nat) :
    WindowKept parse (w.versionCheck parse key c fuel) := by
  unfold WindowWorld.versionCheck
  split
  · exact h
  rename_i result registry hcheck
  rcases reconcileVersionCheck_some (h.keyed key c hc) halive hcheck with
    ⟨hdisabled, rfl, rfl⟩ | ⟨henabled, ⟨⟨e, rfl⟩, rfl⟩ | ⟨synced, polls, hsync, hdue, rfl⟩⟩
  · -- Disabled: the window is removed
    have hregistered : w.noteRegistered key c (.ok false) = w.registered.erase key := if_pos hdisabled
    rw [hregistered]
    refine h.recheck (fun other hother => AList.lookup_erase_ne hother)
      (fun other hother => AList.lookup_erase_ne hother) (fun e he => ?_) (fun r hr => ?_) h.polled
    · rw [AList.lookup_erase] at he
      cases he
    · rw [AList.lookup_erase] at hr
      cases hr
  · -- the schedule does not parse: the window stays as it is
    refine h.recheck (fun _ _ => rfl) (fun _ _ => rfl) (fun e he => ?_) (h.past key) h.polled
    obtain ⟨howned, -, hparsed, hanchored⟩ := h.entries key e he
    exact ⟨howned, ⟨_, rfl, henabled⟩, hparsed, hanchored⟩
  · obtain ⟨⟨e, he, htext, hparsed, hanchor⟩, hothers⟩ :=
      sync_ok hsync fun e he => (h.entries key e he).parsed
    obtain ⟨hregistered, ⟨r, hr, hpast⟩, hkept⟩ := noteRegistered_of_enabled h key henabled polls
    have hanchored : WindowAnchored ((w.noteRegistered key c (.ok polls)).lookup key) w.clock e := by
      rcases hanchor with ⟨-, hnow⟩ | ⟨old, hold, hsame⟩
      · exact ⟨hnow.le, r, hr, hnow ▸ hpast⟩
      · obtain ⟨hpolled, r', hr', hle⟩ := (h.entries key old hold).anchored
        exact ⟨hsame ▸ hpolled, r', hkept r' hr', hsame ▸ hle⟩
    have hentry : ∀ {e' : VcEntry}, e'.cronText = e.cronText → e'.schedule = e.schedule →
        WindowAnchored ((w.noteRegistered key c (.ok polls)).lookup key) w.clock e' →
        EntryKept parse (w.clusters.lookup key) (some (applyPolicy c.apply))
          ((w.noteRegistered key c (.ok polls)).lookup key) w.clock e' := by
      intro e' htext' hschedule hanchored'
      refine ⟨⟨c, hc, halive⟩, ⟨_, rfl, henabled⟩, ?_, hanchored'⟩
      rw [htext', htext, hschedule]
      exact hparsed
    have hpast' : ∀ t, (w.noteRegistered key c (.ok polls)).lookup key = some t → t ≤ w.clock := by
      intro t ht
      cases hr.symm.trans ht
      exact hpast
    rcases due_some hdue he with ⟨rfl, rfl⟩ | ⟨rfl, last, rfl, helapsed, hlast, hfuture⟩
    · refine h.recheck hothers hregistered (fun e' he' => ?_) hpast' h.polled
      cases he.symm.trans he'
      exact hentry rfl rfl hanchored
    · obtain ⟨hnext, r', hr', hslot⟩ := hanchored.due (hparse _ _ hparsed) helapsed hlast hfuture
      refine h.recheck (fun other hother => (AList.lookup_insert_ne hother).trans (hothers other hother))
        hregistered (fun e' he' => ?_) hpast' fun p hp => ?_
      · rw [AList.lookup_insert] at he'
        cases he'
        exact hentry rfl rfl hnext
      · rcases List.mem_append.mp hp with hp | hp
        · exact h.polled p hp
        · cases List.mem_singleton.mp hp
          refine ⟨r', hr', fun cron hcron => ?_⟩
          cases hparsed.symm.trans hcron
          exact hslot

theorem WindowKept.step (h : WindowKept parse w)
    (hparse : ∀ text cron, parse text = .ok cron → CronSchedule.Earliest cron) {event : WindowEvent}
    (hoff : ChecksOff w event) : WindowKept parse (w.step parse event) := by
  cases event with
  | create ns name apply schedule =>
    unfold WindowWorld.step
    dsimp only
    split
    · exact h
    · rename_i hfree
      have hnone := h.no_window fun c hc => absurd (by rw [hc]; rfl) hfree
      have hother : ∀ other e, w.registry.lookup other = some e → other ≠ clusterKey ns name := by
        rintro other e he rfl
        rw [hnone] at he
        cases he
      refine h.insert { ns, name, apply, schedule } rfl (fun e he => absurd rfl (hother _ e he))
        (fun other e he => AList.lookup_erase_ne (hother other e he)) fun other r hr => ?_
      by_cases heq : other = clusterKey ns name
      · rw [heq, AList.lookup_erase] at hr
        cases hr
      · exact h.past other r (AList.lookup_erase_ne heq ▸ hr)
  | edit key apply schedule =>
    unfold WindowWorld.step
    dsimp only
    split
    · exact h
    · rename_i c hc
      refine h.insert { c with apply, schedule } (h.keyed key c hc) (fun e he => ?_) (fun _ _ _ => rfl)
        h.past
      obtain ⟨owner, howner, halive⟩ := (h.entries key e he).owned
      cases hc.symm.trans howner
      exact halive
  | requestDeletion key =>
    unfold WindowWorld.step
    dsimp only
    split
    · exact h
    · rename_i c hc
      refine h.insert { c with deleting := true } (h.keyed key c hc) (fun e he => ?_)
        (fun _ _ _ => rfl) h.past
      obtain ⟨action, haction, henabled⟩ := (h.entries key e he).checked
      exact absurd (hoff action haction) henabled
  | vanish key =>
    unfold WindowWorld.step
    dsimp only
    split
    · exact h
    · rename_i c hc
      split
      · exact h.drop hc ‹_›
      · exact h
  | pass key env =>
    unfold WindowWorld.step WindowWorld.pass
    dsimp only
    split
    · exact h
    rename_i c hc
    split
    · exact h
    split
    · split
      · exact h.drop hc ‹_›
      · exact h
    · exact h.versionCheck hparse hc (Bool.eq_false_iff.mpr ‹_›) _
  | restart =>
    exact ⟨h.keyed, fun _ _ he => (nomatch he), fun _ _ hr => (nomatch hr), h.polled⟩
  | wait seconds =>
    have hlater : (w.clock : Int) ≤ ((w.clock + seconds : Nat) : Int) := by omega
    refine ⟨h.keyed, fun key e he => ?_, fun key r hr => (h.past key r hr).trans hlater, h.polled⟩
    obtain ⟨howned, hchecked, hparsed, hpolled, hregistered⟩ := h.entries key e he
    exact ⟨howned, hchecked, hparsed, hpolled.trans hlater, hregistered⟩

end Kept

/-- In a run that deletes clusters only with their version check off, no window is left of a
cluster that is gone, and no cluster is polled before the first slot after its
registration. -/
theorem windows_follow_clusters {parse : Str → Except Err CronSchedule} {clock : Nat}
    {w : WindowWorld} (hparse : ∀ text cron, parse text = .ok cron → CronSchedule.Earliest cron)
    (hrun : Runs (WindowWorld.step parse) ChecksOff { clock := clock } w) :
    (∀ key, w.clusters.lookup key = none → w.registry.lookup key = none) ∧
      ∀ p ∈ w.polls, p.InTime parse := by
  have hstart : WindowKept parse { clock := clock } :=
    ⟨fun _ _ hc => (nomatch hc), fun _ _ he => (nomatch he), fun _ _ hr => (nomatch hr),
      List.forall_mem_nil _⟩
  have h : WindowKept parse w :=
    Runs.preserves (fun _ _ hoff hw => hw.step hparse hoff) hrun hstart
  refine ⟨fun key hgone => h.no_window fun c hc => ?_, h.polled⟩
  rw [hgone] at hc
  cases hc

/-- Every text stands for the full hours. -/
def parseHourly (_ : Str) : Except Err CronSchedule := .ok hourly

theorem hourly_earliest : CronSchedule.Earliest hourly := by
  intro s t hle hlt
  simp only [hourly] at hlt ⊢
  omega

def prod : Str := "db/prod"

/-- A cluster is created and polled at the first full hour. -/
def polledCluster : List WindowEvent :=
  [.create "db" "prod" "Recommended" "@hourly",
    .pass prod { fuel := 10 }, .wait 5000, .pass prod { fuel := 10 }]

/-- Its check is turned off, and then it is deleted. -/
def retired : List WindowEvent :=
  polledCluster ++ [.edit prod "Disabled" [], .pass prod { fuel := 10 }, .requestDeletion prod,
    .pass prod { released := true, fuel := 10 }]

/-- It is deleted as it is. -/
def deletedCluster : List WindowEvent :=
  polledCluster ++ [.requestDeletion prod, .pass prod { released := true, fuel := 10 },
    .pass prod { fuel := 10 }, .wait 3600]

theorem windows_follow_clusters_off :
    let w := retired.foldl (WindowWorld.step parseHourly) {}
    w.polls.length = 1 ∧ w.clusters.lookup prod = none ∧ w.registry.lookup prod = none ∧
      ∀ p ∈ w.polls, p.InTime parseHourly := by
  intro w
  have hparse : ∀ text cron, parseHourly text = .ok cron → CronSchedule.Earliest cron := by
    intro text cron hcron
    cases hcron
    exact hourly_earliest
  have hrun : Runs (WindowWorld.step parseHourly) ChecksOff {} w := by
    refine Runs.of_allows ⟨trivial, trivial, trivial, trivial, trivial, trivial, fun action h => ?_,
      trivial, trivial⟩
    cases h
    rfl
  obtain ⟨hgone, hpolled⟩ := windows_follow_clusters hparse hrun
  have hclusters : w.clusters.lookup prod = none := by decide +kernel
  exact ⟨by decide +kernel, hclusters, hgone prod hclusters, hpolled⟩

/-- The window outlives its cluster, and the next one of the name is polled in its first pass,
2200 seconds before the full hour. -/
theorem window_outlives_cluster :
    let w := deletedCluster.foldl (WindowWorld.step parseHourly) {}
    let w' := [.create "db" "prod" "Recommended" "@hourly",
      .pass prod { fuel := 10 }].foldl (WindowWorld.step parseHourly) w
    w.clusters.lookup prod = none ∧ (w.registry.lookup prod).isSome = true ∧
      ∃ p ∈ w'.polls, p.registered = some 8600 ∧ p.time = 8600 ∧ hourly.next 8600 = 10800 := by
  decide +kernel

end ValkeyOperator.Cluster

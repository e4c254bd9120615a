import ValkeyOperator.Lib.Runs
import ValkeyOperator.Restore.Passes

/-! The phase of a restore and the status that mirrors it.

The phase stands in an annotation, and a move writes the annotation first and the status
after it; an operator that stops between the two leaves what a failed status write leaves.
No pass writes a status on its own: one that waits for the cluster, or that finds the
restore over, leaves the status as it is. So a status write that fails behind the record
of such a phase is made up for by nothing. -/

namespace ValkeyOperator.Restore
open Text Valkey Api
open Cluster

variable {env : RestoreEnv} {phase : RestorePhase} {w : RestoreWorld}

/-- The status is the projection of the recorded phase. -/
def Mirrored (w : RestoreWorld) : Prop :=
  w.restore.status.state = phaseToState (currentPhase w.restore)

/-- The phases in which a pass may write nothing. -/
def RestorePhase.Rests : RestorePhase → Prop
  | .pending | .provisioning | .unknown _ => False
  | _ => True

/-! ## Moving on once the writes succeed -/

/-- Every write on the restore object succeeds. -/
def RestoreEnv.WritesSucceed (env : RestoreEnv) : Prop :=
  (∀ kvs, env.patchRestore kvs = none) ∧ ∀ phase, env.writeStatus phase = none

/-- The world after some more passes. Each has an environment of its own and finds the
target cluster as others have left it by then. -/
def resume (w : RestoreWorld) (next : Nat → Option PerconaValkeyCluster × RestoreEnv) :
    Nat → RestoreWorld
  | 0 => w
  | k + 1 => (reconcile (next k).2).after { resume w next k with cluster := (next k).1 }

/-- Once the writes succeed, further passes bring the status to the recorded phase,
whatever else they meet. -/
def Settles (w : RestoreWorld) : Prop :=
  ∀ next, (∀ k, (next k).2.WritesSucceed) → ∃ k, Mirrored (resume w next k)

/-- Mirrored already, or in a phase that the next pass leaves. -/
def Recoverable (w : RestoreWorld) : Prop :=
  Mirrored w ∨ ¬ (currentPhase w.restore).Rests

/-! ## What the two writes of a move leave -/

def recordPhase (phase : RestorePhase) (w : RestoreWorld) : RestoreWorld :=
  { w with restore := { w.restore with
    annotations := putAll [(annPhase, phase.text)] w.restore.annotations } }

theorem currentPhase_recordPhase (h : phase.Entered) (w : RestoreWorld) :
    currentPhase (recordPhase phase w).restore = phase := by
  have htext : .ofText phase.text = phase ∧ phase.text ≠ [] := by
    cases phase with
    | pending | unknown => exact h.elim
    | provisioning | seeding | forming | validating | succeeded | failed => exact by decide
  have hlookup : (putAll [(annPhase, phase.text)] w.restore.annotations).lookup annPhase =
      some phase.text := AList.lookup_insert _
  unfold currentPhase recordPhase
  dsimp only
  rw [hlookup]
  exact (if_pos htext.2).trans htext.1

section Writes

variable {P Q E : RestoreWorld → Prop} {env : RestoreEnv}

theorem triple_setPhaseAnnotation {kvs : List (Str × Str)}
    (hmade : ∀ w, P w → Q { w with restore := { w.restore with
      annotations := putAll kvs w.restore.annotations } })
    (hrefused : env.patchRestore kvs ≠ none → ∀ w, P w → E w)
    (hlost : ∀ e, env.patchRestore kvs = some (.lost e) → ∀ w, P w →
      E { w with restore := { w.restore with
        annotations := putAll kvs w.restore.annotations } }) :
    Action.Triple P ( setPhaseAnnotation env kvs) (fun _ => Q) E := by
  intro w hw
  unfold setPhaseAnnotation
  match hpatch : env.patchRestore kvs with
  | none => exact hmade w hw
  | some (.refused e) => exact hrefused (by simp [hpatch]) w hw
  | some (.lost e) => exact hlost e hpatch w hw

theorem triple_writeStatus {desc : Str}
    (hmade : ∀ w status, status.state = phaseToState phase → P w →
      E { w with restore := { w.restore with status := status } })
    (hrefused : Fault.stops (env.writeStatus phase) = true → ∀ w, P w → E w) :
    Action.Triple P (writeStatus env phase desc) (fun _ => E) E := by
  intro w hw
  unfold writeStatus
  match hwrite : env.writeStatus phase with
  | none | some (.lost e) => exact hmade w _ rfl hw
  | some (.refused e) => exact hrefused (by rw [hwrite]; rfl) w hw

/-- The phase is recorded without its status: the write of the status is refused, or not come
to, since the answer to the record is lost. -/
def RestoreEnv.Halves (env : RestoreEnv) (phase : RestorePhase) : Prop :=
  Fault.stops (env.writeStatus phase) = true ∨
    ∃ e, env.patchRestore [(annPhase, phase.text)] = some (.lost e)

/-- A move writes nothing, the phase, or the phase and its status. -/
theorem enters_of_writes
    (hnothing : env.patchRestore [(annPhase, phase.text)] ≠ none → ∀ w, P w → E w)
    (hphase : env.Halves phase → ∀ w, P w → E (recordPhase phase w))
    (hboth : ∀ w status, status.state = phaseToState phase → P w →
      E { recordPhase phase w with
        restore := { (recordPhase phase w).restore with status := status } }) :
    Enters env phase P E := by
  intro desc
  unfold advance
  have hpatch : Action.Triple P ( setPhaseAnnotation env [(annPhase, phase.text)])
      (fun _ v => ∃ w, P w ∧ v = recordPhase phase w) E :=
    triple_setPhaseAnnotation (fun w hw => ⟨w, hw, rfl⟩) hnothing
      fun e hlost => hphase (.inr ⟨e, hlost⟩)
  refine hpatch.bind fun _ => triple_writeStatus ?_ ?_
  · rintro _ status hstate ⟨w, hw, rfl⟩
    exact hboth w status hstate hw
  · rintro hwrite _ ⟨w, hw, rfl⟩
    exact hphase (.inl hwrite) w hw

end Writes

theorem mirrored_of_both (h : phase.Entered) (w : RestoreWorld) {status : RestoreStatus}
    (hstate : status.state = phaseToState phase) :
    Mirrored { recordPhase phase w with
      restore := { (recordPhase phase w).restore with status := status } } := by
  have hphase := currentPhase_recordPhase h w
  exact hstate.trans (congrArg phaseToState hphase.symm)

theorem currentPhase_target (rst : PerconaValkeyRestore) (name detail : Str) :
    currentPhase { rst with
      annotations := putAll [(annTargetCluster, name), (annRestoredSlots, detail)]
        rst.annotations } = currentPhase rst := by
  rcases currentPhase_recorded rst [(annTargetCluster, name), (annRestoredSlots, detail)] with
    hsame | ⟨v, hv, -⟩
  · exact hsame
  · exact absurd hv (phase_not_mem_record v name detail)

/-! ## From which worlds the status settles -/

theorem RestoreEnv.WritesSucceed.whole (h : env.WritesSucceed) : ¬ env.Halves phase := by
  rintro (hstops | ⟨e, hlost⟩)
  · rw [h.2 phase] at hstops
    cases hstops
  · rw [h.1] at hlost
    cases hlost

theorem RestoreEnv.WritesSucceed.enters (h : env.WritesSucceed) (hphase : phase.Entered) :
    Enters env phase (fun _ => True) Mirrored :=
  enters_of_writes (fun hpatch => absurd (h.1 _) hpatch) (fun hhalves => absurd hhalves h.whole)
    fun w _ hstate _ => mirrored_of_both hphase w hstate

/-- A pass over a restore that does not rest moves it, and mirrors the move. -/
theorem mirrored_reconcile (h : env.WritesSucceed) (hmoves : ¬ (currentPhase w.restore).Rests) :
    Mirrored ((reconcile env).after w) := by
  have hfailed : Enters env .failed (fun _ => True) Mirrored := h.enters trivial
  have hterminal : ¬ isTerminal w.restore = true := by
    intro hterminal
    rcases of_decide_eq_true hterminal with hphase | hphase
    · exact hmoves (hphase ▸ trivial)
    · exact hmoves (hphase ▸ trivial)
  rw [reconcile_live env hterminal]
  cases hphase : currentPhase w.restore with
  | pending =>
    have htarget : ∀ name detail, Action.Triple (fun _ => True)
        ( setPhaseAnnotation env [(annTargetCluster, name), (annRestoredSlots, detail)])
        (fun _ _ => True) Mirrored :=
      fun _ _ => triple_setPhaseAnnotation (fun _ _ => trivial)
        (fun hpatch => absurd (h.1 _) hpatch) fun e hlost => nomatch (h.1 _).symm.trans hlost
    exact (hfailed.reconcilePending htarget (h.enters trivial)).after trivial
  | provisioning =>
    exact (hfailed.reconcileProvisioning (fun _ _ hw => hw) (h.enters trivial)).after trivial
  | unknown text => exact (hfailed.fail _ _).after trivial
  | seeding | forming | validating | succeeded | failed =>
    rw [hphase] at hmoves
    exact absurd trivial hmoves

/-- Without a target cluster a pass over a resting phase writes nothing. -/
theorem reconcile_rests (hgot : env.getCluster = none) (hcluster : w.cluster = none)
    (hrests : (currentPhase w.restore).Rests) : (reconcile env).after w = w := by
  by_cases hterminal : isTerminal w.restore = true
  · exact reconcile_terminal env hterminal
  · have hfound : getTargetCluster env w = .ok none w := by
      rcases getTargetCluster_cases env w with ⟨-, hrun⟩ | ⟨hsome, -⟩
      · rw [hrun, hcluster]
      · rw [hgot] at hsome
        exact absurd hsome Bool.false_ne_true
    rw [reconcile_live env hterminal]
    cases hphase : currentPhase w.restore with
    | seeding => exact Action.after_handle_ok hfound _ _
    | forming => exact Action.after_handle_ok hfound _ _
    | validating => exact Action.after_handle_ok hfound _ _
    | succeeded => exact absurd (decide_eq_true (.inl hphase)) hterminal
    | failed => exact absurd (decide_eq_true (.inr hphase)) hterminal
    | pending | provisioning | unknown =>
      rw [hphase] at hrests
      exact hrests.elim

/-- A source that cannot be read, and no cluster. -/
def idleEnv : RestoreEnv where
  source := .error ⟨[], false⟩
  manifest := .error ⟨[], false⟩
  verdict := .error ⟨[], false⟩

theorem restore_resume_idle (h : (currentPhase w.restore).Rests) (k : Nat) :
    (resume w (fun _ => (none, idleEnv)) k).restore = w.restore := by
  induction k with
  | zero => rfl
  | succ k ih =>
    rw [resume, reconcile_rests rfl rfl]
    · exact ih
    · exact ih.symm ▸ h

/-- The status settles unless a phase rests with another one's status. -/
theorem settles_iff (w : RestoreWorld) : Settles w ↔ Recoverable w := by
  constructor
  · intro hsettles
    by_cases hrests : (currentPhase w.restore).Rests
    · -- nothing moves a resting restore whose cluster never comes
      obtain ⟨k, hk⟩ := hsettles (fun _ => (none, idleEnv)) fun _ => ⟨fun _ => rfl, fun _ => rfl⟩
      unfold Mirrored at hk
      rw [restore_resume_idle hrests k] at hk
      exact .inl hk
    · exact .inr hrests
  · rintro (hmirrored | hmoves) next hnext
    · exact ⟨0, hmirrored⟩
    · exact ⟨1, mirrored_reconcile (hnext 0) hmoves⟩

theorem not_settles {state : RestoreState}
    (hw : currentPhase w.restore = phase ∧ w.restore.status.state = state) (hrests : phase.Rests)
    (hother : state ≠ phaseToState phase) : ¬ Settles w := by
  obtain ⟨rfl, rfl⟩ := hw
  intro hsettles
  rcases (settles_iff w).mp hsettles with hmirrored | hmoves
  · exact hother hmirrored
  · exact hmoves hrests

/-! ## Runs -/

inductive RestoreEvent where
  | reconcile (env : RestoreEnv)
  /-- others create, change or delete the target cluster -/
  | cluster (cluster : Option PerconaValkeyCluster)

def restoreStep (w : RestoreWorld) : RestoreEvent → RestoreWorld
  | .reconcile env => (reconcile env).after w
  | .cluster cluster => { w with cluster := cluster }

/-- The status of a resting phase is written with the phase, unless it is the one that is
there. -/
def StatusWritten (w : RestoreWorld) : RestoreEvent → Prop
  | .reconcile env => ∀ phase : RestorePhase, phase.Rests →
      w.restore.status.state ≠ phaseToState phase → ¬ env.Halves phase
  | .cluster _ => True

theorem recoverable_reconcile (hw : Recoverable w) (hwritten : StatusWritten w (.reconcile env)) :
    Recoverable ((reconcile env).after w) := by
  -- until the pass records a phase, the status is the one it has found
  let Found (v : RestoreWorld) : Prop :=
    Recoverable v ∧ v.restore.status.state = w.restore.status.state
  have hadvance : ∀ phase : RestorePhase, phase.Entered → Enters env phase Found Recoverable := by
    intro phase hphase
    refine enters_of_writes (fun _ _ hv => hv.1) ?_
      fun v _ hstate _ => .inl (mirrored_of_both hphase v hstate)
    rintro hhalves v ⟨-, hstate⟩
    have hrecorded := currentPhase_recordPhase hphase v
    by_cases hrests : phase.Rests
    · left
      by_contra hother
      refine hwritten phase hrests (fun hsame => hother ?_) hhalves
      exact (hstate.trans hsame).trans (congrArg phaseToState hrecorded.symm)
    · right
      rw [hrecorded]
      exact hrests
  have htarget : ∀ name detail, Action.Triple Found
      ( setPhaseAnnotation env [(annTargetCluster, name), (annRestoredSlots, detail)])
      (fun _ => Found) Recoverable := by
    intro name detail
    have hkept : ∀ v, Recoverable v → Recoverable { v with restore := { v.restore with
        annotations := putAll [(annTargetCluster, name), (annRestoredSlots, detail)]
          v.restore.annotations } } := by
      intro v hv
      unfold Recoverable Mirrored at hv ⊢
      rw [currentPhase_target]
      exact hv
    exact triple_setPhaseAnnotation (fun v hv => ⟨hkept v hv.1, hv.2⟩) (fun _ v hv => hv.1)
      fun _ _ v hv => hkept v hv.1
  exact (Enters.reconcile hadvance htarget (fun _ _ hv => hv) fun _ hv => hv.1).after ⟨hw, rfl⟩

/-- A restore whose status writes reach every phase it may rest in is never left with the
status of another phase for good. -/
theorem restore_status_settles {start w : RestoreWorld}
    (hstart : currentPhase start.restore = .pending)
    (hruns : Runs restoreStep StatusWritten start w) : Settles w := by
  refine (settles_iff w).mpr (hruns.preserves ?_ (.inr (by rw [hstart]; exact id)))
  rintro v (env | cluster) hallowed hv
  · exact recoverable_reconcile hv hallowed
  · exact hv

def freshRestore : RestoreWorld where
  restore :=
    { name := "rst", ns := "db"
      spec := { clusterName := "copy", backupName := "bk-1" } }

/-- A pass over a good source whose status writes fail in the given phases. -/
def unwritten (phases : List RestorePhase) : RestoreEvent :=
  .reconcile
    { source := .ok { cluster := "prod", backup := "bk-1" }
      manifest := .ok
        { cluster := "prod", backupName := "bk-1", mode := [], crVersion := []
          engineVersion := [], createdAt := [], consistency := [] }
      verdict := .ok "complete"
      writeStatus := fun phase =>
        if phase ∈ phases then some (.refused ⟨"etcdserver: request timed out", false⟩)
        else none }

/-- The first status is never written, and the next pass makes up for it. -/
theorem restore_status_settles_fresh :
    currentPhase (restoreStep freshRestore (unwritten [.provisioning])).restore = .provisioning ∧
    (restoreStep freshRestore (unwritten [.provisioning])).restore.status.state = .new ∧
    Settles (restoreStep freshRestore (unwritten [.provisioning])) := by
  have hfacts :
      currentPhase (restoreStep freshRestore (unwritten [.provisioning])).restore = .provisioning ∧
      (restoreStep freshRestore (unwritten [.provisioning])).restore.status.state = .new := by
    decide +kernel
  have hwritten : StatusWritten freshRestore (unwritten [.provisioning]) := by
    intro phase hrests _
    rintro (hstops | ⟨e, hlost⟩)
    · cases phase with
      | pending | provisioning | unknown => exact hrests
      | seeding | forming | validating | succeeded | failed => exact absurd hstops (by decide)
    · cases hlost
  have hpending : currentPhase freshRestore.restore = .pending := rfl
  exact ⟨hfacts.1, hfacts.2, restore_status_settles hpending (Runs.extend .refl hwritten)⟩

/-- The target formed, with all its slots, and Ready. -/
def formedTarget (w : RestoreWorld) : RestoreEvent :=
  .cluster (w.cluster.map fun cluster => { cluster with status :=
    { state := .ready, conditions := [(.clusterFormed, true), (.slotsAssigned, true)] } })

/-- A restore in which nothing fails before its target is there. -/
def seededRestore : RestoreWorld :=
  [unwritten [], unwritten [], unwritten []].foldl restoreStep freshRestore

/-- It succeeds, but for the write of its last status. -/
def endedRestore : RestoreWorld :=
  [formedTarget seededRestore, unwritten [], unwritten [.succeeded]].foldl restoreStep seededRestore

/-- One whose source cannot be read, and whose status is not written either. -/
def refusedRestore : RestoreWorld :=
  restoreStep freshRestore (.reconcile
    { idleEnv with
      writeStatus := fun _ => some (.refused ⟨"etcdserver: request timed out", false⟩) })

/-- The restore is over, and its status says running, or nothing, from then on. -/
theorem restore_status_stuck :
    Runs restoreStep (fun _ _ => True) freshRestore endedRestore ∧
    currentPhase endedRestore.restore = .succeeded ∧
    endedRestore.restore.status.state = .running ∧ ¬ Settles endedRestore ∧
    Runs restoreStep (fun _ _ => True) freshRestore refusedRestore ∧
    currentPhase refusedRestore.restore = .failed ∧
    refusedRestore.restore.status.state = .new ∧ ¬ Settles refusedRestore := by
  have hended : currentPhase endedRestore.restore = .succeeded ∧
      endedRestore.restore.status.state = .running := by
    decide +kernel
  have hrefused : currentPhase refusedRestore.restore = .failed ∧
      refusedRestore.restore.status.state = .new := by
    decide +kernel
  refine ⟨?_, hended.1, hended.2, not_settles hended trivial (by decide), ?_, hrefused.1,
    hrefused.2, not_settles hrefused trivial (by decide)⟩
  · exact (Runs.of_events (fun _ _ => trivial) freshRestore _).trans
      (Runs.of_events (fun _ _ => trivial) seededRestore _)
  · exact Runs.extend .refl trivial

end ValkeyOperator.Restore

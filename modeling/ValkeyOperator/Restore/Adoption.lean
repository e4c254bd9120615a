import ValkeyOperator.Lib.Runs
import ValkeyOperator.Restore.Passes
import ValkeyOperator.Restore.Reseeding

/-! A restore whose target name is taken.

A restore of the `NewCluster` strategy that finds a cluster of its target's name, or
loses the create to one, adopts it: the code takes it for one of its own making. A
cluster that was there before the restore is left as it is exactly as long as every
pass that comes to the stamping finds its own markers there already. -/

namespace ValkeyOperator.Restore
open Text Valkey Api
open Cluster

/-! ## The taken name -/

/-- A restore and the cluster that has had its target's name from the start. -/
structure TakenWorld where
  restore : PerconaValkeyRestore
  existing : PerconaValkeyCluster

inductive TakenEvent where
  /-- a pass of the restore, which may still read that there is no such cluster -/
  | pass (env : RestoreEnv) (lagging : Bool)
  /-- the cluster's own controller writes its status -/
  | report (status : ClusterStatus)

/-- What a pass reads. -/
def TakenWorld.view (w : TakenWorld) (lagging : Bool) : RestoreWorld where
  restore := w.restore
  cluster := if lagging then none else some w.existing

/-- The create, if it gets through, meets the existing cluster; that answer may get lost. -/
def RestoreEnv.taken (env : RestoreEnv) (existing : PerconaValkeyCluster) : RestoreEnv :=
  { env with
    appeared := if env.createCluster.isSome then none else some existing
    createCluster := env.createCluster.map fun
      | .refused e | .lost e => .refused e }

/-- What a pass stores of the cluster is what there is of it from then on. -/
def TakenWorld.step (w : TakenWorld) : TakenEvent → TakenWorld
  | .pass env lagging =>
    let after := (reconcile (env.taken w.existing)).after (w.view lagging)
    { restore := after.restore, existing := after.cluster.getD w.existing }
  | .report status => { w with existing := { w.existing with status := status } }

/-- The annotations and the specification are the same. -/
def SameObject (a b : PerconaValkeyCluster) : Prop :=
  a.annotations = b.annotations ∧ a.spec = b.spec

instance (a b : PerconaValkeyCluster) : Decidable (SameObject a b) :=
  inferInstanceAs (Decidable (_ ∧ _))

theorem SameObject.trans {a b c : PerconaValkeyCluster} (hab : SameObject a b)
    (hbc : SameObject b c) : SameObject a c :=
  ⟨hab.1.trans hbc.1, hab.2.trans hbc.2⟩

theorem SameObject.symm {a b : PerconaValkeyCluster} (h : SameObject a b) : SameObject b a :=
  ⟨h.1.symm, h.2.symm⟩

/-! ## When a pass stamps -/

/-- The pass comes to the stamping of the existing cluster, and may write. -/
def Stamps (env : RestoreEnv) (lagging : Bool) (w : TakenWorld) : Prop :=
  env.getCluster = none ∧ Fault.stops env.patchCluster = false ∧
    match currentPhase w.restore with
    | .provisioning => lagging = true → env.createCluster = none ∧ env.refetch = none
    | .seeding => lagging = false ∧
        (seedOverrideApplied w.existing && restoreMarkerApplied w.existing) = false
    | _ => False

/-- A pass that comes to the stamping finds its markers there. -/
def LeavesAlone (w : TakenWorld) : TakenEvent → Prop
  | .pass env lagging => ∀ src man, env.source = .ok src → env.manifest = .ok man →
      Stamps env lagging w →
      annotationsContain w.existing.annotations (restoreMarkerAnnotations w.restore src) = true
  | .report _ => True

/-- Stamping changes nothing only where the markers were all there. -/
theorem annotationsContain_of_putAll {rst : PerconaValkeyRestore} {src : ResolvedSource}
    {m : StrMap} (h : putAll (restoreMarkerAnnotations rst src) m = m) :
    annotationsContain m (restoreMarkerAnnotations rst src) = true := by
  refine List.all_eq_true.mpr fun kv hkv => ?_
  have hlookup := lookup_putAll_of_mem (restoreMarkerAnnotations_nodup rst src) (m := m) hkv
  rw [h] at hlookup
  simp [StrMap.get, hlookup]

/-- The stamping, where the pass comes to it, changes nothing exactly if it may not write
or has nothing to write. -/
theorem stamped_same_iff (env : RestoreEnv) (rst : PerconaValkeyRestore) (src : ResolvedSource)
    (cluster : PerconaValkeyCluster) (comes : Prop) [Decidable comes] :
    SameObject (if comes then stamped env rst src cluster else cluster) cluster ↔
      (comes → Fault.stops env.patchCluster = false →
        annotationsContain cluster.annotations (restoreMarkerAnnotations rst src) = true) := by
  by_cases hcomes : comes
  · rw [if_pos hcomes]
    unfold stamped
    dsimp only
    cases hcontain : annotationsContain cluster.annotations
        (restoreMarkerAnnotations rst src) with
    | true => exact iff_of_true ⟨rfl, rfl⟩ fun _ _ => rfl
    | false =>
      cases Fault.stops env.patchCluster with
      | true => exact iff_of_true ⟨rfl, rfl⟩ fun _ h => nomatch h
      | false =>
        refine iff_of_false ?_ fun h => nomatch h hcomes rfl
        rw [if_neg (by decide)]
        unfold SameObject
        dsimp only
        intro ⟨hput, _⟩
        rw [annotationsContain_of_putAll hput] at hcontain
        exact Bool.noConfusion hcontain
  · rw [if_neg hcomes]
    exact iff_of_true ⟨rfl, rfl⟩ fun h => absurd h hcomes

theorem provisioned_taken (env : RestoreEnv) (lagging : Bool) {w : TakenWorld}
    (hstrategy : w.restore.spec.strategy = .newCluster) (src : ResolvedSource)
    (man : Backup.Manifest) :
    (provisioned (env.taken w.existing) (w.view lagging) src man).getD w.existing =
      if env.getCluster = none ∧ (lagging = true → env.createCluster = none ∧ env.refetch = none)
      then stamped env w.restore src w.existing else w.existing := by
  unfold provisioned RestoreEnv.taken TakenWorld.view
  dsimp only
  cases hget : env.getCluster with
  | some e => cases lagging <;> simp
  | none =>
    cases lagging with
    | false => simp [stamped]
    | true =>
      match env.createCluster with
      | some (.refused e) | some (.lost e) => simp [Fault.stops]
      | none => cases hrefetch : env.refetch <;> simp [hstrategy, stamped]

theorem reseeded_taken (env : RestoreEnv) (lagging : Bool) (w : TakenWorld)
    (src : ResolvedSource) :
    (reseeded (env.taken w.existing) (w.view lagging) src).getD w.existing =
      if env.getCluster = none ∧ lagging = false ∧
        (seedOverrideApplied w.existing && restoreMarkerApplied w.existing) = false
      then stamped env w.restore src w.existing else w.existing := by
  unfold reseeded RestoreEnv.taken TakenWorld.view
  dsimp only
  cases hget : env.getCluster with
  | some e => cases lagging <;> simp
  | none =>
    cases lagging with
    | true => simp
    | false =>
      simp only [Option.isSome_none, Bool.false_eq_true, if_false, Option.map_some,
        Option.getD_some, true_and]
      generalize (seedOverrideApplied w.existing && restoreMarkerApplied w.existing) = applied
      cases applied <;> rfl

theorem sourced_same_iff {env : RestoreEnv} {v : RestoreWorld} {existing : PerconaValkeyCluster}
    {step : ResolvedSource → Backup.Manifest → Option PerconaValkeyCluster}
    (hkept : v.cluster.getD existing = existing) :
    SameObject ((sourced env v step).getD existing) existing ↔
      ∀ src man, env.source = .ok src → env.manifest = .ok man →
        SameObject ((step src man).getD existing) existing := by
  unfold sourced
  cases env.source with
  | error e => exact iff_of_true (by rw [hkept]; exact ⟨rfl, rfl⟩) fun _ _ h => nomatch h
  | ok src =>
    cases env.manifest with
    | error e => exact iff_of_true (by rw [hkept]; exact ⟨rfl, rfl⟩) fun _ _ _ h => nomatch h
    | ok man => simp

/-- One event leaves the existing cluster as it is just when it leaves it alone. -/
theorem step_same_iff {w : TakenWorld} (hstrategy : w.restore.spec.strategy = .newCluster)
    (e : TakenEvent) : SameObject (w.step e).existing w.existing ↔ LeavesAlone w e := by
  cases e with
  | report status => exact iff_of_true ⟨rfl, rfl⟩ trivial
  | pass env lagging =>
    have hexisting : (w.step (.pass env lagging)).existing =
        (clusterAfter (env.taken w.existing) (w.view lagging)).getD w.existing :=
      congrArg (Option.getD · w.existing) (reconcile_cluster _ _)
    have hkept : ((w.view lagging).cluster).getD w.existing = w.existing := by
      cases lagging <;> rfl
    have hview : currentPhase (w.view lagging).restore = currentPhase w.restore := rfl
    rw [hexisting]
    unfold clusterAfter LeavesAlone Stamps
    rw [hview]
    cases hphase : currentPhase w.restore with
    | provisioning =>
      refine (sourced_same_iff hkept).trans ?_
      refine forall₄_congr fun src man _ _ => ?_
      rw [provisioned_taken env lagging hstrategy, stamped_same_iff]
      tauto
    | seeding =>
      refine (sourced_same_iff hkept).trans ?_
      refine forall₄_congr fun src man _ _ => ?_
      rw [reseeded_taken, stamped_same_iff]
      tauto
    | _ =>
      refine iff_of_true ?_ fun _ _ _ _ h => absurd h.2.2 id
      rw [hkept]
      exact ⟨rfl, rfl⟩

/-! ## Over a run -/

theorem step_strategy {w : TakenWorld} (hstrategy : w.restore.spec.strategy = .newCluster)
    (e : TakenEvent) : (w.step e).restore.spec.strategy = .newCluster := by
  cases e with
  | report status => exact hstrategy
  | pass env lagging =>
    have hspec := reconcile_spec (env.taken w.existing) (w.view lagging)
    exact (congrArg RestoreSpec.strategy hspec).trans hstrategy

/-- Whatever the passes of a restore of the `NewCluster` strategy meet, the cluster that
had the target's name before stays as it is all along exactly if no pass comes to stamp
a marker that is not there. -/
theorem existing_same_iff {w : TakenWorld} (hstrategy : w.restore.spec.strategy = .newCluster)
    (events : List TakenEvent) :
    (∀ done, done <+: events → SameObject (done.foldl TakenWorld.step w).existing w.existing) ↔
      Runs.Allows TakenWorld.step LeavesAlone w events := by
  induction events generalizing w with
  | nil =>
    refine iff_of_true ?_ trivial
    intro done hdone
    rw [List.prefix_nil.mp hdone]
    exact ⟨rfl, rfl⟩
  | cons e rest ih =>
    have hrest := ih (step_strategy hstrategy e)
    constructor
    · intro h
      have hfirst : SameObject (w.step e).existing w.existing :=
        h [e] ⟨rest, rfl⟩
      refine ⟨(step_same_iff hstrategy e).mp hfirst, hrest.mp ?_⟩
      intro done hdone
      exact (h (e :: done) (List.cons_prefix_cons.mpr ⟨rfl, hdone⟩)).trans hfirst.symm
    · intro h done hdone
      have hfirst := (step_same_iff hstrategy e).mpr h.1
      rcases List.prefix_cons_iff.mp hdone with rfl | ⟨later, rfl, hlater⟩
      · exact ⟨rfl, rfl⟩
      · exact (hrest.mpr h.2 later hlater).trans hfirst

/-- The first two passes of a restore, which accept the source and provision. -/
def twoPasses (lagging : Bool) : List TakenEvent :=
  [.pass oneShard lagging, .pass oneShard lagging]

/-- A cluster with the restore's own markers is not touched. -/
theorem existing_same_marked :
    pendingWorld.restore.spec.strategy = .newCluster ∧
      ∀ done, done <+: twoPasses false →
        SameObject (done.foldl TakenWorld.step ⟨pendingWorld.restore, targetCluster⟩).existing
          targetCluster := by
  refine ⟨rfl, (existing_same_iff (w := ⟨pendingWorld.restore, targetCluster⟩) rfl _).mpr
    ⟨?_, ?_, trivial⟩⟩
  · intro src man hsource _ _
    cases hsource
    decide +kernel
  · intro src man hsource _ _
    cases hsource
    decide +kernel

/-- A cluster with two shards that has nothing to do with the restore. -/
def foreignCluster : PerconaValkeyCluster :=
  { readyCluster with annotations := ∅, spec := { image := "valkey:8", shards := 2 } }

/-- A restore of the default strategy stamps it, found by the read or by the create. -/
theorem newCluster_stamps_existing :
    pendingWorld.restore.spec.strategy = .newCluster ∧
      ∀ lagging, ¬ SameObject ((twoPasses lagging).foldl TakenWorld.step
        ⟨pendingWorld.restore, foreignCluster⟩).existing foreignCluster := by
  decide +kernel

end ValkeyOperator.Restore

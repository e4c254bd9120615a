import ValkeyOperator.Restore.Phases

/-! What the passes of a restore do to its target cluster.

A pass changes the cluster in two places only: provisioning creates it, or stamps the
markers on one that is there, and seeding stamps them again when they are missing.
Neither asks who has created the cluster. -/

namespace ValkeyOperator.Restore
open Text Valkey Api
open Cluster

variable {env : RestoreEnv} {w : RestoreWorld}

/-! ## Markers on a cluster -/

theorem lookup_putAll_of_mem {kvs : List (Str × Str)} (hkeys : (kvs.map Prod.fst).Nodup)
    {m : StrMap} {kv : Str × Str} (h : kv ∈ kvs) : (putAll kvs m).lookup kv.1 = some kv.2 :=
  Inserts.lookup_of_nodup hkeys h

/-- All markers, also those left out because they are empty. -/
def markers (rst : PerconaValkeyRestore) (src : ResolvedSource) : List (Str × Str) :=
  [(annRestoreMarker, restoreMarkerValue rst), (annSeedAppendonly, seedAppendonlyNo),
    (annRestoreStorage, src.storageName), (annSourceCluster, src.cluster),
    (annSourceBackup, src.backup)]

theorem restoreMarkerValue_ne_nil (rst : PerconaValkeyRestore) : restoreMarkerValue rst ≠ [] := by
  unfold restoreMarkerValue
  split
  · exact List.append_ne_nil_of_right_ne_nil _ (List.cons_ne_nil _ _)
  · exact List.append_ne_nil_of_right_ne_nil _ (by decide)

theorem restoreMarkerAnnotations_eq (rst : PerconaValkeyRestore) (src : ResolvedSource) :
    restoreMarkerAnnotations rst src = (markers rst src).filter fun kv => kv.2 ≠ [] := by
  have hone : ∀ (kv : Str × Str) (rest : List (Str × Str)),
      (kv :: rest).filter (fun kv => kv.2 ≠ []) =
        (if kv.2 ≠ [] then [kv] else []) ++ rest.filter fun kv => kv.2 ≠ [] := by
    intro kv rest
    by_cases hvalue : kv.2 = [] <;> simp [hvalue]
  have hseed : seedAppendonlyNo ≠ [] := by decide
  unfold restoreMarkerAnnotations markers
  rw [hone, hone, hone, hone, hone, if_pos (restoreMarkerValue_ne_nil rst), if_pos hseed]
  simp only [List.filter_nil, List.append_nil, List.append_assoc, List.cons_append, List.nil_append]

theorem markers_nodup (rst : PerconaValkeyRestore) (src : ResolvedSource) :
    ((markers rst src).map Prod.fst).Nodup := by
  unfold markers
  simp only [List.map_cons, List.map_nil]
  -- compared behind what all of them begin with
  exact .of_map (·.drop 26) (by decide +kernel)

theorem restoreMarkerAnnotations_nodup (rst : PerconaValkeyRestore) (src : ResolvedSource) :
    ((restoreMarkerAnnotations rst src).map Prod.fst).Nodup := by
  rw [restoreMarkerAnnotations_eq]
  exact (markers_nodup rst src).sublist (List.filter_sublist.map _)

/-- On a new cluster every marker reads as it was to be stamped. -/
theorem get_marker {rst : PerconaValkeyRestore} {src : ResolvedSource} {key value : Str}
    (h : (key, value) ∈ markers rst src) :
    StrMap.get (putAll (restoreMarkerAnnotations rst src) ∅) key = value := by
  have hnodup := restoreMarkerAnnotations_nodup rst src
  rw [restoreMarkerAnnotations_eq] at hnodup ⊢
  unfold StrMap.get
  by_cases hvalue : value = []
  · rw [lookup_putAll_of_not_mem, hvalue]
    · rfl
    · intro hmem
      obtain ⟨kv, hkv, hkey⟩ := List.mem_map.mp hmem
      obtain ⟨hkv, hne⟩ := List.mem_filter.mp hkv
      have hsame := List.inj_on_of_nodup_map (markers_nodup rst src) hkv h hkey
      rw [hsame, hvalue] at hne
      simp at hne
  · have hmem : (key, value) ∈ (markers rst src).filter fun kv => kv.2 ≠ [] :=
      List.mem_filter.mpr ⟨h, decide_eq_true hvalue⟩
    rw [lookup_putAll_of_mem hnodup hmem]
    rfl

/-! ## The cluster behind a pass -/

/-- The cluster as an attempt to stamp the markers leaves it. -/
def stamped (env : RestoreEnv) (rst : PerconaValkeyRestore) (src : ResolvedSource)
    (cluster : PerconaValkeyCluster) : PerconaValkeyCluster :=
  let want := restoreMarkerAnnotations rst src
  if annotationsContain cluster.annotations want || Fault.stops env.patchCluster then cluster
  else { cluster with annotations := putAll want cluster.annotations }

/-- The cluster a restore creates. -/
def newTarget (env : RestoreEnv) (rst : PerconaValkeyRestore) (src : ResolvedSource)
    (man : Backup.Manifest) : PerconaValkeyCluster where
  name := targetClusterName rst
  ns := rst.ns
  spec := { env.template.getD {} with shards := Int32.ofNat man.shards.length }
  annotations := putAll (restoreMarkerAnnotations rst src) ∅

/-- The cluster behind the provisioning, which creates or adopts it. -/
def provisioned (env : RestoreEnv) (w : RestoreWorld) (src : ResolvedSource)
    (man : Backup.Manifest) : Option PerconaValkeyCluster :=
  if env.getCluster.isSome then w.cluster
  else
    match w.cluster, env.appeared with
    | some cluster, _ => some (stamped env w.restore src cluster)
    | none, some fresh =>
      if w.restore.spec.strategy = .inPlace ∨ env.refetch.isSome = true then none
      else some (stamped env w.restore src fresh)
    | none, none =>
      if w.restore.spec.strategy = .inPlace ∨ Fault.stops env.createCluster = true then none
      else some (newTarget env w.restore src man)

/-- The cluster behind the seeding. -/
def reseeded (env : RestoreEnv) (w : RestoreWorld) (src : ResolvedSource) :
    Option PerconaValkeyCluster :=
  if env.getCluster.isSome then w.cluster
  else w.cluster.map fun cluster =>
    if seedOverrideApplied cluster && restoreMarkerApplied cluster then cluster
    else stamped env w.restore src cluster

/-- The cluster behind a step that needs the source and its manifest: without them it
stays as it is. -/
def sourced (env : RestoreEnv) (w : RestoreWorld)
    (step : ResolvedSource → Backup.Manifest → Option PerconaValkeyCluster) :
    Option PerconaValkeyCluster :=
  match env.source, env.manifest with
  | .ok src, .ok man => step src man
  | _, _ => w.cluster

/-- The cluster behind a pass. -/
def clusterAfter (env : RestoreEnv) (w : RestoreWorld) : Option PerconaValkeyCluster :=
  match currentPhase w.restore with
  | .provisioning => sourced env w fun src man => provisioned env w src man
  | .seeding => sourced env w fun src _ => reseeded env w src
  | _ => w.cluster

theorem sourced_eq_self {step : ResolvedSource → Backup.Manifest → Option PerconaValkeyCluster}
    (h : ∀ src man, step src man = w.cluster) : sourced env w step = w.cluster := by
  unfold sourced
  split
  · exact h _ _
  · rfl

/-! ## It is what a pass leaves -/

theorem recordable_cluster (cluster : Option PerconaValkeyCluster) :
    Recordable (fun _ => True) fun w => w.cluster = cluster where
  annotations _ _ _ hw := hw
  status _ _ hw := hw

theorem cluster_fail (env : RestoreEnv) (reason : Str) (e : Err) (w : RestoreWorld) :
    ((fail env reason e).after w).cluster = w.cluster :=
  (keeps_fail (recordable_cluster w.cluster) env trivial reason e).after rfl

theorem cluster_proceed (env : RestoreEnv) (phase : RestorePhase) (desc : Str) (requeue : Requeue)
    (w : RestoreWorld) : ((proceed env phase desc requeue).after w).cluster = w.cluster :=
  (keeps_proceed (recordable_cluster w.cluster) env trivial desc requeue).after rfl

theorem cluster_orFail {α : Type} (env : RestoreEnv) (reason : String)
    (a : Action RestoreWorld α) {next : α → Action RestoreWorld Requeue} (w : RestoreWorld)
    (hnext : ∀ x v, ((next x).after v).cluster = v.cluster) :
    ((orFail env reason a next).after w).cluster = (a.after w).cluster := by
  rw [orFail, Action.after_handle, Action.after]
  cases a w with
  | ok x v => exact hnext x v
  | error e v => exact cluster_fail env _ e v

theorem cluster_orFail_lift {α : Type} (env : RestoreEnv) (reason : String) (r : Except Err α)
    (next : α → Action RestoreWorld Requeue) (w : RestoreWorld) :
    ((orFail env reason (lift r) next).after w).cluster =
      match r with
      | .ok x => ((next x).after w).cluster
      | .error _ => w.cluster := by
  cases r with
  | ok x => rfl
  | error e => exact cluster_fail env _ e w

theorem cluster_getTargetCluster (env : RestoreEnv) (reason : String)
    (next : Option PerconaValkeyCluster → Action RestoreWorld Requeue) (w : RestoreWorld) :
    ((orFail env reason (getTargetCluster env) next).after w).cluster =
      if env.getCluster.isSome then w.cluster else ((next w.cluster).after w).cluster := by
  rcases getTargetCluster_cases env w with ⟨hget, hrun⟩ | ⟨hget, e, hrun⟩
  · rw [orFail, Action.after_handle_ok hrun, hget]
    rfl
  · rw [orFail, Action.after_handle_error hrun, cluster_fail, hget]
    rfl

theorem cluster_stampRestoreMarkers (env : RestoreEnv) (cluster : PerconaValkeyCluster)
    (src : ResolvedSource) (h : w.cluster = some cluster) :
    ((stampRestoreMarkers env cluster src).after w).cluster =
      some (stamped env w.restore src cluster) := by
  unfold stampRestoreMarkers stamped
  rw [Action.after_get_bind]
  dsimp only
  by_cases hcontain : annotationsContain cluster.annotations
      (restoreMarkerAnnotations w.restore src) = true
  · rw [if_pos hcontain, hcontain]
    exact h
  · rw [if_neg hcontain, Bool.eq_false_iff.mpr hcontain]
    match env.patchCluster with
    | none | some (.lost _) => rfl
    | some (.refused _) => exact h

theorem cluster_createTargetCluster (env : RestoreEnv) (src : ResolvedSource)
    (man : Backup.Manifest) (h : w.cluster = none) :
    ((createTargetCluster env src man).after w).cluster =
      match env.appeared with
      | some fresh =>
        if env.refetch.isSome then none else some (stamped env w.restore src fresh)
      | none =>
        if Fault.stops env.createCluster then none else some (newTarget env w.restore src man) := by
  unfold createTargetCluster
  rw [Action.after_get_bind]
  dsimp only
  cases env.appeared with
  | some fresh =>
    cases hrefetch : env.refetch with
    | some e => exact h
    | none => exact cluster_stampRestoreMarkers env fresh src (w := { w with cluster := some fresh }) rfl
  | none =>
    match env.createCluster with
    | none | some (.lost _) => rfl
    | some (.refused _) => exact h

theorem cluster_provisionTargetCluster (env : RestoreEnv) (src : ResolvedSource)
    (man : Backup.Manifest) (w : RestoreWorld) :
    ((provisionTargetCluster env src man).after w).cluster = provisioned env w src man := by
  unfold provisionTargetCluster provisioned
  rcases getTargetCluster_cases env w with ⟨hget, hrun⟩ | ⟨hget, e, hrun⟩
  · have hfound : Action.Returns (getTargetCluster env) w w.cluster w := hrun
    rw [hfound.after_bind, hget]
    cases hcluster : w.cluster with
    | some cluster => exact cluster_stampRestoreMarkers env cluster src hcluster
    | none =>
      rw [Action.after_get_bind]
      dsimp only
      by_cases hstrategy : w.restore.spec.strategy = .inPlace
      · have hkept : ∀ e, ((throw e : Action RestoreWorld Unit).after w).cluster = none :=
          fun _ => hcluster
        rw [if_pos hstrategy, hkept]
        cases env.appeared <;> simp [hstrategy]
      · rw [if_neg hstrategy, cluster_createTargetCluster env src man hcluster]
        cases env.appeared <;> simp [hstrategy]
  · unfold Action.after
    rw [Action.bind_error hrun, hget]
    rfl

theorem cluster_reconcilePending (env : RestoreEnv) (w : RestoreWorld) :
    ((reconcilePending env).after w).cluster = w.cluster :=
  (keeps_reconcilePending (recordable_cluster w.cluster) env trivial (fun _ _ => trivial) trivial).after rfl

theorem cluster_orFail_sourced (env : RestoreEnv)
    (next : ResolvedSource → Backup.Manifest → Action RestoreWorld Requeue) (w : RestoreWorld) :
    ((orFail env "SourceResolveFailed" (lift env.source) fun src =>
      orFail env "ManifestUnavailable" (lift env.manifest) fun man =>
        next src man).after w).cluster =
      sourced env w fun src man => ((next src man).after w).cluster := by
  unfold sourced
  rw [cluster_orFail_lift]
  cases env.source with
  | error e => rfl
  | ok src =>
    dsimp only
    rw [cluster_orFail_lift]
    cases env.manifest <;> rfl

theorem cluster_reconcileProvisioning (env : RestoreEnv) (w : RestoreWorld) :
    ((reconcileProvisioning env).after w).cluster =
      sourced env w fun src man => provisioned env w src man := by
  unfold reconcileProvisioning
  rw [cluster_orFail_sourced]
  congr 1
  funext src man
  rw [cluster_orFail env _ _ w fun _ v => cluster_proceed env _ _ _ v]
  exact cluster_provisionTargetCluster env src man w

theorem cluster_reconcileSeeding (env : RestoreEnv) (w : RestoreWorld) :
    ((reconcileSeeding env).after w).cluster = sourced env w fun src _ => reseeded env w src := by
  unfold reconcileSeeding
  rw [cluster_getTargetCluster]
  split
  · rename_i hget
    exact (sourced_eq_self fun src man => by rw [reseeded, if_pos hget]).symm
  · rename_i hget
    cases hcluster : w.cluster with
    | none =>
      rw [sourced_eq_self fun src man => by rw [reseeded, if_neg hget, hcluster]; rfl]
      rfl
    | some cluster =>
      dsimp only
      by_cases hmarkers : (seedOverrideApplied cluster && restoreMarkerApplied cluster) = true
      · rw [sourced_eq_self fun src man => by
          rw [reseeded, if_neg hget, hcluster, Option.map_some, if_pos hmarkers]]
        rw [if_neg (by simpa using hmarkers), cluster_proceed]
      · have hstamp : ∀ src, ((orFail env "SeedMarkerFailed" (stampRestoreMarkers env cluster src)
            fun _ => pure .later).after w).cluster = reseeded env w src := by
          intro src
          rw [cluster_orFail env _ _ w fun _ _ => rfl,
            cluster_stampRestoreMarkers env cluster src hcluster]
          rw [reseeded, if_neg hget, hcluster, Option.map_some, if_neg hmarkers]
        rw [if_pos (by simpa [or_iff_not_imp_left] using hmarkers), cluster_orFail_sourced]
        congr 1
        funext src man
        exact hstamp src

theorem cluster_reconcileForming (env : RestoreEnv) (w : RestoreWorld) :
    ((reconcileForming env).after w).cluster = w.cluster :=
  (keeps_reconcileForming (recordable_cluster w.cluster) env trivial trivial).after rfl

theorem cluster_reconcileValidating (env : RestoreEnv) (w : RestoreWorld) :
    ((reconcileValidating env).after w).cluster = w.cluster :=
  (keeps_reconcileValidating (recordable_cluster w.cluster) env trivial trivial).after rfl

theorem reconcile_cluster (env : RestoreEnv) (w : RestoreWorld) :
    ((reconcile env).after w).cluster = clusterAfter env w := by
  by_cases hterminal : isTerminal w.restore = true
  · rw [reconcile_terminal env hterminal]
    have hphase := of_decide_eq_true hterminal
    unfold clusterAfter
    rcases hphase with hphase | hphase <;> rw [hphase]
  · rw [reconcile_live env hterminal]
    unfold clusterAfter
    cases hphase : currentPhase w.restore with
    | pending => exact cluster_reconcilePending env w
    | provisioning => exact cluster_reconcileProvisioning env w
    | seeding => exact cluster_reconcileSeeding env w
    | forming => exact cluster_reconcileForming env w
    | validating => exact cluster_reconcileValidating env w
    | succeeded => exact cluster_fail env _ _ w
    | failed => exact cluster_fail env _ _ w
    | unknown text => exact cluster_fail env _ _ w

theorem stamped_of_marked (env : RestoreEnv) {rst : PerconaValkeyRestore} {src : ResolvedSource}
    {cluster : PerconaValkeyCluster}
    (h : annotationsContain cluster.annotations (restoreMarkerAnnotations rst src) = true) :
    stamped env rst src cluster = cluster := by
  unfold stamped
  dsimp only
  rw [h]
  rfl

/-- A cluster that carries the markers is left as it is. -/
theorem clusterAfter_of_marked {cluster : PerconaValkeyCluster}
    (hcluster : w.cluster = some cluster) (hmarked : ∀ src, env.source = .ok src →
      annotationsContain cluster.annotations (restoreMarkerAnnotations w.restore src) = true) :
    clusterAfter env w = some cluster := by
  unfold clusterAfter
  split
  · unfold sourced
    split
    · rename_i src man hsource _
      unfold provisioned
      rw [hcluster]
      split
      · rfl
      · exact congrArg some (stamped_of_marked env (hmarked src hsource))
    · exact hcluster
  · unfold sourced
    split
    · rename_i src man hsource _
      unfold reseeded
      rw [hcluster]
      split
      · rfl
      · dsimp only
        rw [Option.map_some, stamped_of_marked env (hmarked src hsource), ite_self]
    · exact hcluster
  · exact hcluster

/-- Where there is none, and none appears meanwhile, a cluster comes from the provisioning
alone. -/
theorem clusterAfter_of_none (hcluster : w.cluster = none) (happeared : env.appeared = none) :
    clusterAfter env w = none ∨
      currentPhase w.restore = .provisioning ∧ ∃ src man, env.source = .ok src ∧
        env.manifest = .ok man ∧ clusterAfter env w = some (newTarget env w.restore src man) := by
  unfold clusterAfter
  split
  · rename_i hphase
    unfold sourced
    split
    · rename_i src man hsource hmanifest
      unfold provisioned
      rw [hcluster, happeared]
      dsimp only
      split
      · exact .inl rfl
      · split
        · exact .inl rfl
        · exact .inr ⟨hphase, src, man, hsource, hmanifest, rfl⟩
    · exact .inl hcluster
  · unfold sourced
    split
    · unfold reseeded
      rw [hcluster]
      split <;> exact .inl rfl
    · exact .inl hcluster
  · exact .inl hcluster

/-! ## How a pass moves the phase -/

/-- The phases a pass can leave the restore in. -/
inductive Advance (w : RestoreWorld) : RestorePhase → Prop
  | stay : Advance w (currentPhase w.restore)
  | fail : Advance w .failed
  | accept (h : currentPhase w.restore = .pending) : Advance w .provisioning
  | provision (h : currentPhase w.restore = .provisioning) : Advance w .seeding
  | seed (h : currentPhase w.restore = .seeding) : Advance w .forming
  | form (h : currentPhase w.restore = .forming) : Advance w .validating
  /-- the target has all its slots and is Ready -/
  | succeed (h : currentPhase w.restore = .validating) {cluster : PerconaValkeyCluster}
      (hcluster : w.cluster = some cluster) (hslots : clusterSlotsComplete cluster = true)
      (hready : clusterReady cluster = true) : Advance w .succeeded

theorem recordsOnly_phase {Kind : RestorePhase → Prop} {phase : RestorePhase}
    (htext : .ofText phase.text = phase) (hne : phase.text ≠ []) (h : Kind phase) :
    RecordsOnly Kind [(annPhase, phase.text)] := by
  intro v hv
  rw [phase_of_mem_record hv, htext]
  exact ⟨hne, h⟩

theorem recordsOnly_target (Kind : RestorePhase → Prop) (name detail : Str) :
    RecordsOnly Kind [(annTargetCluster, name), (annRestoredSlots, detail)] :=
  fun v hv => absurd hv (phase_not_mem_record v name detail)

theorem recordsOnly_failed (w : RestoreWorld) :
    RecordsOnly (Advance w) [(annPhase, RestorePhase.failed.text)] :=
  recordsOnly_phase (by decide) (by decide) .fail

theorem reconcileValidating_advance (env : RestoreEnv) (h : currentPhase w.restore = .validating) :
    Advance w (currentPhase ((reconcileValidating env).after w).restore) := by
  have hrecord := recordable_phase (Advance w)
  have hfail : ∀ reason e, Advance w (currentPhase ((fail env reason e).after w).restore) :=
    fun reason e => (keeps_fail hrecord env (recordsOnly_failed w) reason e).after .stay
  rw [reconcileValidating, orFail]
  rcases getTargetCluster_cases env w with ⟨-, hget⟩ | ⟨-, e, hget⟩
  · rw [Action.after_handle_ok hget]
    cases hcluster : w.cluster with
    | none => exact .stay
    | some cluster =>
      dsimp only
      split
      · exact hfail _ _
      · split
        · exact .stay
        · rename_i hcomplete
          simp only [Bool.or_eq_true, Bool.not_eq_true', not_or, Bool.not_eq_false] at hcomplete
          have hsucceeded : RecordsOnly (Advance w) [(annPhase, RestorePhase.succeeded.text)] :=
            recordsOnly_phase (by decide) (by decide)
              (.succeed h hcluster hcomplete.1 hcomplete.2)
          exact (keeps_proceed hrecord env hsucceeded _ _).after .stay
  · rw [Action.after_handle_error hget]
    exact hfail _ e

/-- A pass takes one phase at most, and the last one only over a complete cluster. -/
theorem reconcile_advance (env : RestoreEnv) (w : RestoreWorld) :
    Advance w (currentPhase ((reconcile env).after w).restore) := by
  have hrecord := recordable_phase (Advance w)
  have hfailed := recordsOnly_failed w
  by_cases hterminal : isTerminal w.restore = true
  · rw [reconcile_terminal env hterminal]
    exact .stay
  · rw [reconcile_live env hterminal]
    split
    · rename_i hphase
      have hnext : RecordsOnly (Advance w) [(annPhase, RestorePhase.provisioning.text)] :=
        recordsOnly_phase (by decide) (by decide) (.accept hphase)
      exact (keeps_reconcilePending hrecord env hfailed (recordsOnly_target _) hnext).after .stay
    · rename_i hphase
      have hnext : RecordsOnly (Advance w) [(annPhase, RestorePhase.seeding.text)] :=
        recordsOnly_phase (by decide) (by decide) (.provision hphase)
      exact (keeps_reconcileProvisioning hrecord env (fun _ _ hv => hv) hfailed hnext).after .stay
    · rename_i hphase
      have hnext : RecordsOnly (Advance w) [(annPhase, RestorePhase.forming.text)] :=
        recordsOnly_phase (by decide) (by decide) (.seed hphase)
      exact (keeps_reconcileSeeding hrecord env (fun _ _ hv => hv) hfailed hnext).after .stay
    · rename_i hphase
      have hnext : RecordsOnly (Advance w) [(annPhase, RestorePhase.validating.text)] :=
        recordsOnly_phase (by decide) (by decide) (.form hphase)
      exact (keeps_reconcileForming hrecord env hfailed hnext).after .stay
    · rename_i hphase
      exact reconcileValidating_advance env hphase
    · exact (keeps_fail hrecord env hfailed _ _).after .stay

/-! ## What a pass leaves alone -/

/-- The phases a pass can record. -/
def RestorePhase.Entered : RestorePhase → Prop
  | .pending | .unknown _ => False
  | _ => True

/-- A pass records one phase at most, or leaves the restore as it is. -/
theorem Enters.reconcile {P E : RestoreWorld → Prop}
    (hadvance : ∀ phase : RestorePhase, phase.Entered → Enters env phase P E)
    (htarget : ∀ name detail, Action.Triple P
      ( setPhaseAnnotation env [(annTargetCluster, name), (annRestoredSlots, detail)])
      (fun _ => P) E) (hcluster : ∀ w cluster, P w → P { w with cluster := cluster })
    (hstay : ∀ w, P w → E w) : Action.Triple P (reconcile env) (fun _ => E) E := by
  have hfailed := hadvance .failed trivial
  have hget : Action.Triple P (get : Action RestoreWorld RestoreWorld) (fun _ => P) E :=
    fun _ hw => hw
  unfold Restore.reconcile
  refine hget.bind fun w => ?_
  dsimp only
  split
  · exact .pure hstay
  · split
    · exact hfailed.reconcilePending htarget (hadvance .provisioning trivial)
    · exact hfailed.reconcileProvisioning hcluster (hadvance .seeding trivial)
    · exact hfailed.reconcileSeeding hcluster hstay (hadvance .forming trivial)
    · exact hfailed.reconcileForming hstay (hadvance .validating trivial)
    · exact hfailed.reconcileValidating hstay (hadvance .succeeded trivial)
    · exact hfailed.fail _ _

/-- A pass breaks nothing that neither a record on the restore nor a change of the
cluster can break. -/
theorem keeps_reconcile {P : RestoreWorld → Prop} (h : Recordable (fun _ => True) P)
    (hcluster : ∀ w cluster, P w → P { w with cluster := cluster }) (env : RestoreEnv) :
    Action.Keeps P (reconcile env) fun _ => True :=
  (Enters.reconcile (fun _ _ => enters_of_recordable h env trivial)
    (fun _ _ => .of_keeps (keeps_setPhase h env trivial)) hcluster fun _ hw => hw).keeps

theorem reconcile_spec (env : RestoreEnv) (w : RestoreWorld) :
    ((reconcile env).after w).restore.spec = w.restore.spec :=
  (keeps_reconcile (P := fun v => v.restore.spec = w.restore.spec)
    ⟨fun _ _ _ hv => hv, fun _ _ hv => hv⟩ (fun _ _ hv => hv) env).after rfl

theorem reconcile_name (env : RestoreEnv) (w : RestoreWorld) :
    ((reconcile env).after w).restore.name = w.restore.name :=
  (keeps_reconcile (P := fun v => v.restore.name = w.restore.name)
    ⟨fun _ _ _ hv => hv, fun _ _ hv => hv⟩ (fun _ _ hv => hv) env).after rfl

end ValkeyOperator.Restore

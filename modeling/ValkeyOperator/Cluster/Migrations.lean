import ValkeyOperator.Cluster.Pipeline
import ValkeyOperator.Cluster.ScrapeOrder
import ValkeyOperator.Lib.InFlight
import ValkeyOperator.Valkey.Balance
import ValkeyOperator.Valkey.Drain

/-! Slot migrations that take time (`perconavalkeycluster/rebalance.go`,
`valkey/client.go`, `valkey/topology.go`).

MIGRATESLOTS only starts a migration. Until it is done the slots stay with their source,
and passes go on meanwhile: each one scrapes the nodes, plans a move from what it has seen
and asks the source of the move for its migrations before it sends the command. What a
pass has seen may be outdated by then, node by node.

The engine's part is an assumption of the step relation: it starts a migration only of
slots the source owns and only to another primary, and a source lists what it migrates. -/

namespace ValkeyOperator.Cluster
open Text Valkey Api
open InFlight

variable {shards : Int} {nodes view : List NodeState} {m : Move} {S : Sorter NodeState}

/-! ## What a source reports -/

structure SlotMigration where
  state : Str
  nodeID : Str := []

def migrationStateRunning : Str := "running"
def migrationStateSuccess : Str := "success"
def migrationStateFailed : Str := "failed"
def migrationStateCanceled : Str := "canceled"
def migrationStateCancelled : Str := "cancelled"

def SlotMigration.isTerminal (m : SlotMigration) : Bool :=
  decide (m.state = migrationStateSuccess ∨ m.state = migrationStateFailed ∨
    m.state = migrationStateCanceled ∨ m.state = migrationStateCancelled)

def anyMigrationInProgress (migrations : List SlotMigration) : Bool :=
  migrations.any fun m => !m.isTerminal

/-- `unicode.ToLower` as far as it can lead to a letter of a state: two letters beyond
ASCII have a lower case in it. -/
def lowerRune (c : Char) : Char :=
  if c = Char.ofNat 0x130 then 'i' else if c = Char.ofNat 0x212A then 'k' else c.toLower

/-- One entry of the reply, if it is a map at all. -/
def slotMigrationOf : Option StrMap → SlotMigration
  | none => { state := migrationStateRunning }
  | some values => {
      state := ((values.lookup "state".toList).getD []).map lowerRune
      nodeID := (values.lookup "node".toList).getD [] }

def clusterGetSlotMigrations (reply : Except Err (List (Option StrMap))) :
    Except Err (List SlotMigration) :=
  match reply with
  | .error e => .error (e.wrap "CLUSTER GETSLOTMIGRATIONS")
  | .ok entries => .ok (entries.map slotMigrationOf)

/-- What the guard of `migrateSlots` makes of the reply. -/
def migrationsReported (reply : Except Err (List (Option StrMap))) : Except Err Bool :=
  (clusterGetSlotMigrations reply).map anyMigrationInProgress

/-- The reply lists a migration as long as one from this source runs: an entry that cannot
be read, or one in none of the four final states. -/
def Lists (reply : Except Err (List (Option StrMap))) (running : List Move) (id : Str) : Prop :=
  ∀ entries, reply = .ok entries → (∃ m ∈ running, m.srcID = id) →
    ∃ entry ∈ entries, (slotMigrationOf entry).isTerminal = false

/-- A guard that lets the move pass finds no migration of its source. -/
theorem idle_of_reported {reply : Except Err (List (Option StrMap))} {running : List Move}
    {id : Str} (h : migrationsReported reply = .ok false) (hlists : Lists reply running id) :
    ∀ m ∈ running, m.srcID ≠ id := by
  intro m hm hid
  cases reply with
  | error e => cases h
  | ok entries =>
    obtain ⟨entry, hentry, hstate⟩ := hlists entries rfl ⟨m, hm, hid⟩
    have hnone := Except.ok.inj h
    rw [anyMigrationInProgress, List.any_map, List.any_eq_false] at hnone
    refine hnone entry hentry ?_
    rw [Function.comp_apply, hstate]
    rfl

/-! ## What a pass sends -/

/-- The move for which the scaling of a pass sends MIGRATESLOTS. -/
def sentMove (env : PassInputs) (o : ObjectMeta) (s : PassState) (view : List NodeState) :
    Option Move :=
  match scaleStage env o (newClusterState view) s with
  | .ok _ => none
  | .error done =>
    match done.effect with
    | .migrate m => some m
    | _ => none

section Sent

variable {env : PassInputs} {o : ObjectMeta} {s : PassState} {view : List NodeState} {m : Move}

theorem deleteEffect_ne_migrate (n : ValkeyNode) : deleteEffect env n ≠ .migrate m := by
  unfold deleteEffect
  split <;> simp

theorem migrations_of_sent {state : ClusterState} (h : (migrateSlots env state m).1 = true) :
    env.migrations = .ok false := by
  unfold migrateSlots at h
  split at h
  · cases h
  · split at h
    · cases h
    · split at h
      · cases h
      · cases h
      · assumption

/-- A sent move is planned by the scale-in or, with nothing to scale in, by the rebalance,
and no migration has been reported for it. -/
theorem sentMove_eq_some (h : sentMove env o s view = some m) :
    env.migrations = .ok false ∧
      (handleScaleIn env.nodeSorter env.stateSorter s.cluster (newClusterState view) s.nodes =
          .migrate m ∨
        handleScaleIn env.nodeSorter env.stateSorter s.cluster (newClusterState view) s.nodes =
          .nothing ∧
        planRebalanceMove env.stateSorter (newClusterState view) s.cluster.spec.shards.toInt =
          some m) := by
  have hmoved : ∀ (move : Move) (onProgress : PassState → PassState) (reason context : Str),
      (moveEnd env o (newClusterState view) move onProgress reason context s).effect =
        .migrate m → env.migrations = .ok false ∧ move = m := by
    intro move onProgress reason context heffect
    unfold moveEnd at heffect
    dsimp only at heffect
    split at heffect
    · cases heffect
      exact ⟨migrations_of_sent ‹_›, rfl⟩
    · cases heffect
  unfold sentMove at h
  split at h
  · cases h
  rename_i done hdone
  have heffect : done.effect = .migrate m := by
    split at h
    · rename_i move heffect
      rw [heffect, Option.some.inj h]
    · cases h
  unfold scaleStage at hdone
  split at hdone
  · cases hdone
    exact absurd heffect (deleteEffect_ne_migrate _)
  · cases hdone
    exact absurd heffect (deleteEffect_ne_migrate _)
  · rename_i move hscale
    cases hdone
    obtain ⟨hidle, rfl⟩ := hmoved _ _ _ _ heffect
    exact ⟨hidle, .inl hscale⟩
  · rename_i hscale
    split at hdone
    · cases hdone
    · rename_i move hplan
      cases hdone
      obtain ⟨hidle, rfl⟩ := hmoved _ _ _ _ heffect
      exact ⟨hidle, .inr ⟨hscale, hplan⟩⟩

/-- The move takes a batch of a node that has been seen. -/
def TakesBatch (view : List NodeState) (m : Move) : Prop :=
  ∃ src ∈ view, ∃ count, m.srcID = src.id ∧ m.ranges = batchOf src.slots count ∧
    1 ≤ count ∧ count ≤ batchSize ∧ count ≤ src.numSlots

theorem mem_of_effectiveShards {p : NodeState} (hp : p ∈ effectiveShards S (newClusterState view)) :
    p ∈ view := by
  rcases List.mem_append.mp (S.mem_sort.mp hp) with hp | hp
  · obtain ⟨shard, hshard, hp⟩ := List.mem_filterMap.mp hp
    exact Separate.mem_of_primary hshard hp
  · rw [(newClusterState_groups view).2] at hp
    exact List.mem_of_mem_filter (List.mem_of_mem_filter hp)

/-- So does the rebalance, whatever the view. -/
theorem takesBatch_of_rebalance (h : planRebalanceMove S (newClusterState view) shards = some m) :
    TakesBatch view m := by
  unfold planRebalanceMove at h
  split at h
  · cases h
  rename_i hshards
  dsimp only at h
  split at h
  · cases h
  split at h
  · rename_i src dst hsrc hdst
    cases h
    have hover := List.find?_some hsrc
    have hunder := List.find?_some hdst
    rw [decide_eq_true_eq] at hover hunder
    obtain ⟨hmem, htarget⟩ := List.of_mem_zip (List.mem_of_find?_eq_some hsrc)
    have hshare : 0 ≤ totalSlots / shards := Int.ediv_nonneg (by decide) (by omega)
    have hnonneg := le_trans hshare (le_of_mem_targetSlotsPerShard htarget)
    unfold rebalanceTolerance at hover hunder
    refine ⟨src.1, mem_of_effectiveShards hmem, _, rfl, rfl, ?_, ?_, ?_⟩
    · unfold batchSize
      omega
    · exact le_trans (min_le_right _ _) (min_le_right _ _)
    · exact le_trans (min_le_left _ _) (by omega)
  · cases h

theorem takesBatch_of_scaleIn {S : Sorter ValkeyNode} {S' : Sorter NodeState}
    {cluster : PerconaValkeyCluster} {nodes : List ValkeyNode}
    (hview : ∀ n ∈ view, Ordered n.slots)
    (h : handleScaleIn S S' cluster (newClusterState view) nodes = .migrate m) :
    TakesBatch view m := by
  unfold handleScaleIn at h
  split at h
  · cases h
  split at h
  · rename_i src rest hdraining
    have hfirst : src ∈ drainingShardPrimaries S' (newClusterState view) (positionsByIP nodes)
        cluster.spec.shards.toInt := by
      rw [hdraining]
      exact List.mem_cons_self
    have hmem := Separate.mem_of_drainingShardPrimaries hfirst
    unfold drainShard at h
    split at h
    · cases h
    rename_i move hplan
    cases h
    obtain ⟨-, hslots, dst, -, -, -, rfl⟩ :=
      planDrainMove_eq_some (d := ⟨src, _⟩) hplan
    have hnonneg := numSlots_nonneg (hview src hmem)
    dsimp only at hslots
    refine ⟨src, hmem, _, rfl, rfl, ?_, min_le_right _ _, min_le_left _ _⟩
    change 1 ≤ min src.numSlots 400
    omega
  · split at h <;> cases h

theorem takesBatch_of_sent (hview : ∀ n ∈ view, Ordered n.slots)
    (h : sentMove env o s view = some m) : TakesBatch view m := by
  rcases (sentMove_eq_some h).2 with hscale | ⟨-, hplan⟩
  · exact takesBatch_of_scaleIn hview hscale
  · exact takesBatch_of_rebalance hplan

theorem TakesBatch.numSlots (h : TakesBatch view m)
    (hview : ∀ n ∈ view, Ordered n.slots ∧ (expand n.slots).Nodup) :
    Ordered m.ranges ∧ (expand m.ranges).Nodup ∧ 1 ≤ m.numSlots ∧ m.numSlots ≤ batchSize := by
  obtain ⟨src, hsrc, count, -, hranges, hpos, hcap, hle⟩ := h
  obtain ⟨hordered, hnodup⟩ := hview src hsrc
  have hcount : m.numSlots = count := by
    rw [Move.numSlots, hranges]
    exact countSlots_batchOf hordered (by omega) hle
  rw [hcount, hranges]
  exact ⟨ordered_slotsToRanges _, nodup_expand_batchOf hnodup _, hpos, hcap⟩

end Sent

/-! ## The engines -/

/-- The slots lie with the primaries, each with one at most. -/
structure SlotTable (nodes : List NodeState) : Prop where
  ids : (nodes.map (·.id)).Nodup
  listed : ∀ n ∈ nodes, Ordered n.slots ∧ (expand n.slots).Nodup
  unique : ∀ p ∈ primaries nodes, ∀ q ∈ primaries nodes, ∀ slot, Covers p.slots slot →
    Covers q.slots slot → p = q

theorem SlotTable.exclusive (h : SlotTable nodes) : Exclusive (primaries nodes) :=
  ⟨fun p hp => (h.listed p (mem_primaries.mp hp).1).1,
    fun p hp => (h.listed p (mem_primaries.mp hp).1).2, h.unique⟩

theorem SlotTable.eq_of_id (h : SlotTable nodes) {p q : NodeState} (hp : p ∈ primaries nodes)
    (hq : q ∈ primaries nodes) (hid : p.id = q.id) : p = q :=
  List.inj_on_of_nodup_map h.ids (mem_primaries.mp hp).1 (mem_primaries.mp hq).1 hid

/-- The engine of the source starts the migration. -/
def Accepts (nodes : List NodeState) (m : Move) : Prop :=
  ∃ src ∈ primaries nodes, ∃ dst ∈ primaries nodes, m.srcID = src.id ∧ m.dstID = dst.id ∧
    src.id ≠ dst.id ∧ ∀ slot, Covers m.ranges slot → Covers src.slots slot

/-- The migration can still be carried out. -/
def Migratable (nodes : List NodeState) (m : Move) : Prop :=
  (∃ src ∈ primaries nodes, ∃ dst ∈ primaries nodes, m.Between src dst) ∧
    1 ≤ m.numSlots ∧ m.numSlots ≤ batchSize

theorem SlotTable.migratable (h : SlotTable nodes) (haccepts : Accepts nodes m)
    (hordered : Ordered m.ranges) (hnodup : (expand m.ranges).Nodup) (hpos : 1 ≤ m.numSlots)
    (hcap : m.numSlots ≤ batchSize) : Migratable nodes m := by
  obtain ⟨src, hsrc, dst, hdst, hsrcID, hdstID, hne, howned⟩ := haccepts
  refine ⟨⟨src, hsrc, dst, hdst, hsrcID, hdstID, hne, hordered, hnodup, howned, ?_⟩, hpos, hcap⟩
  intro slot hslot hcovers
  exact hne (congrArg _ (h.unique src hsrc dst hdst slot (howned slot hslot) hcovers))

section Done

variable {nodes nodes' : List NodeState} {m k : Move}

theorem SlotTable.applied (h : SlotTable nodes) (hm : Migratable nodes m)
    (happlied : m.Applied nodes nodes') : SlotTable nodes' := by
  obtain ⟨⟨src, hsrc, dst, -, hbetween⟩, -⟩ := hm
  obtain ⟨f, rfl, hf⟩ := happlied
  refine ⟨?_, ?_, ?_⟩
  · rw [List.map_map]
    exact (List.map_congr_left fun n hn => (hf n hn).id) ▸ h.ids
  · exact List.forall_mem_map.mpr fun n hn => ⟨(hf n hn).ordered, (hf n hn).nodup⟩
  · rw [primaries_map_carried hf]
    exact (h.exclusive.map (fun p hp q hq => h.eq_of_id hp hq) hbetween hsrc
      (carried_primaries hf)).unique

theorem Migratable.owned_iff (hm : Migratable nodes m) (happlied : m.Applied nodes nodes')
    (slot : Int) : Owned (primaries nodes') slot ↔ Owned (primaries nodes) slot := by
  obtain ⟨⟨src, hsrc, dst, hdst, hbetween⟩, -⟩ := hm
  obtain ⟨f, rfl, hf⟩ := happlied
  rw [primaries_map_carried hf]
  exact hbetween.owned_map hsrc hdst (carried_primaries hf) slot

theorem SlotTable.disjoint (h : SlotTable nodes) (hm : Migratable nodes m)
    (hk : Migratable nodes k) (hne : m.srcID ≠ k.srcID) (slot : Int)
    (hslot : Covers m.ranges slot) : ¬ Covers k.ranges slot := by
  obtain ⟨⟨src, hsrc, dst, -, hbetween⟩, -⟩ := hm
  obtain ⟨⟨src', hsrc', dst', -, hbetween'⟩, -⟩ := hk
  intro hslot'
  have hsame := h.unique src hsrc src' hsrc' slot (hbetween.owned slot hslot)
    (hbetween'.owned slot hslot')
  exact hne (hbetween.srcID.trans (hsame ▸ hbetween'.srcID.symm))

theorem SlotTable.migratable_applied (h : SlotTable nodes) (hm : Migratable nodes m)
    (happlied : m.Applied nodes nodes') (hk : Migratable nodes k) (hne : m.srcID ≠ k.srcID) :
    Migratable nodes' k := by
  have hdisjoint := h.disjoint hm hk hne
  obtain ⟨⟨src, hsrc, dst, hdst, hbetween⟩, hcount⟩ := hk
  obtain ⟨f, rfl, hf⟩ := happlied
  have hmem : ∀ p ∈ primaries nodes, f p ∈ primaries (nodes.map f) := by
    intro p hp
    rw [primaries_map_carried hf]
    exact List.mem_map_of_mem hp
  have hfsrc := carried_primaries hf src hsrc
  have hfdst := carried_primaries hf dst hdst
  refine ⟨⟨f src, hmem src hsrc, f dst, hmem dst hdst, hfsrc.id ▸ hbetween.srcID,
    hfdst.id ▸ hbetween.dstID, ?_, hbetween.ordered, hbetween.nodup, ?_, ?_⟩, hcount⟩
  · rw [hfsrc.id, hfdst.id]
    exact hbetween.ne
  · intro slot hslot
    rw [hfsrc.covers, Move.Leaves]
    have hold := hbetween.owned slot hslot
    split
    · exact .inl hold
    · rw [if_neg fun hid => hne (hid.symm.trans hbetween.srcID.symm)]
      exact hold
  · intro slot hslot
    rw [hfdst.covers, Move.Leaves]
    have hfresh := hbetween.fresh slot hslot
    split
    · exact not_or.mpr ⟨hfresh, fun hmoved => hdisjoint slot hmoved hslot⟩
    · split
      · exact fun hleft => hfresh hleft.1
      · exact hfresh

theorem Migratable.spent (h : SlotTable nodes) (hm : Migratable nodes m)
    (happlied : m.Applied nodes nodes') : ¬ Migratable nodes' m := by
  intro hagain
  have htable := h.applied hm happlied
  obtain ⟨⟨src, hsrc, dst, -, hbetween⟩, hpos, -⟩ := hm
  obtain ⟨⟨src', hsrc', dst', -, hbetween'⟩, -⟩ := hagain
  obtain ⟨f, rfl, hf⟩ := happlied
  have hfsrc := carried_primaries hf src hsrc
  have hsame : src' = f src := by
    refine htable.eq_of_id hsrc' ?_ (hbetween'.srcID.symm.trans (hfsrc.id ▸ hbetween.srcID))
    rw [primaries_map_carried hf]
    exact List.mem_map_of_mem hsrc
  -- a batch is never empty, and its first slot has left the source
  have hslot : ∃ slot, Covers m.ranges slot := by
    rw [Move.numSlots, ← length_expand hbetween.ordered] at hpos
    obtain ⟨slot, hslot⟩ := List.exists_mem_of_length_pos (l := expand m.ranges) (by omega)
    exact ⟨slot, mem_expand.mp hslot⟩
  obtain ⟨slot, hslot⟩ := hslot
  have howned := hbetween'.owned slot hslot
  rw [hsame, hfsrc.covers, hbetween.leaves_src] at howned
  exact howned.2 hslot

end Done

/-- Migrations over tables whose primaries own these slots between them, and that have a
property which migrations keep. -/
def slotTransfers (All : Int → Prop) (P : List NodeState → Prop)
    (keeps : ∀ {nodes nodes' m}, P nodes → Move.Applied m nodes nodes' → P nodes') :
    Transfers (List NodeState) Move where
  Sound nodes := SlotTable nodes ∧ (∀ slot, Owned (primaries nodes) slot ↔ All slot) ∧ P nodes
  Valid := Migratable
  Applied := Move.Applied
  Clash m k := m.srcID = k.srcID
  clash_symm := Eq.symm
  sound h hm happlied := ⟨h.1.applied hm happlied,
    fun slot => (hm.owned_iff happlied slot).trans (h.2.1 slot), keeps h.2.2 happlied⟩
  valid h := h.1.migratable_applied

/-! ## Passes and migrations in any order -/

/-- The engines, the migrations that run and the nodes the pass has scraped. -/
abbrev SlotFlights := Flights (List NodeState) Move (List NodeState)

/-- What happens: a pass scrapes, sends a move that the engine starts, or ends otherwise; a
migration is done, or fails. A start counts whether or not its reply arrives. `Scrapes`
says how the view of a pass comes about, `Works` which objects the passes work with. -/
inductive SlotStep (Scrapes : List NodeState → List NodeState → List NodeState → Prop)
    (Works : PassState → Prop) : SlotFlights → SlotFlights → Prop
  | scrape {nodes view view' : List NodeState} {running : List Move}
      (h : Scrapes nodes view view') :
      SlotStep Scrapes Works ⟨nodes, running, view⟩ ⟨nodes, running, view'⟩
  | ends {nodes view : List NodeState} {running : List Move} :
      SlotStep Scrapes Works ⟨nodes, running, view⟩ ⟨nodes, running, []⟩
  | starts {nodes view : List NodeState} {running : List Move} {m : Move} {env : PassInputs}
      {o : ObjectMeta} {s : PassState} {reply : Except Err (List (Option StrMap))}
      (works : Works s) (sent : sentMove env o s view = some m)
      (asked : env.migrations = migrationsReported reply) (lists : Lists reply running m.srcID)
      (accepts : Accepts nodes m) :
      SlotStep Scrapes Works ⟨nodes, running, view⟩ ⟨nodes, m :: running, []⟩
  | done {nodes nodes' view : List NodeState} {before after : List Move} {m : Move}
      (h : m.Applied nodes nodes') :
      SlotStep Scrapes Works ⟨nodes, before ++ m :: after, view⟩ ⟨nodes', before ++ after, view⟩
  | fails {nodes view : List NodeState} {before after : List Move} {m : Move} :
      SlotStep Scrapes Works ⟨nodes, before ++ m :: after, view⟩ ⟨nodes, before ++ after, view⟩

/-- One node after the other, each as it is when its turn comes. -/
def OneByOne (nodes view view' : List NodeState) : Prop := ∃ n ∈ nodes, view' = view ++ [n]

/-- All nodes that answer, as they are at one moment. -/
def AtOnce (nodes _view view' : List NodeState) : Prop := ∃ answers, view' = nodes.filter answers

/-- The passes as a planner. -/
def passPlanner (Scrapes : List NodeState → List NodeState → List NodeState → Prop)
    (Works : PassState → Prop) : Planner (List NodeState) Move (List NodeState) where
  sees nodes view view' := Scrapes nodes view view' ∨ view' = []
  plan view m := ∃ env o s, Works s ∧ sentMove env o s view = some m
  blank := []

/-- All a pass has seen is well formed, however old. -/
def ViewListed (view : List NodeState) : Prop :=
  ∀ n ∈ view, Ordered n.slots ∧ (expand n.slots).Nodup

theorem viewListed_nil : ViewListed [] := fun _ hn => absurd hn List.not_mem_nil

section Runs

variable {Scrapes : List NodeState → List NodeState → List NodeState → Prop}
  {Works : PassState → Prop} {All : Int → Prop} {P : List NodeState → Prop}

/-- A step is one of the planner. The guard on the source keeps its migrations apart. -/
theorem SlotStep.flies
    (keeps : ∀ {nodes nodes' m}, P nodes → Move.Applied m nodes nodes' → P nodes')
    {a b : SlotFlights} (htable : SlotTable a.table) (hview : ViewListed a.view)
    (h : SlotStep Scrapes Works a b) :
    InFlight.Step (slotTransfers All P keeps) (passPlanner Scrapes Works) a b := by
  cases h with
  | scrape h => exact .look (.inl h)
  | ends => exact .look (.inr rfl)
  | @starts nodes view running m env o s reply works sent asked lists accepts =>
    have hbatch := takesBatch_of_sent (fun n hn => (hview n hn).1) sent
    obtain ⟨hordered, hnodup, hpos, hcap⟩ := hbatch.numSlots hview
    refine .begin ⟨env, o, s, works, sent⟩
      (htable.migratable accepts hordered hnodup hpos hcap) fun k hk => ?_
    exact idle_of_reported (asked.symm.trans (sentMove_eq_some sent).1) lists k hk
  | done h => exact .finish h
  | fails => exact .abort

theorem SlotStep.viewListed {a b : SlotFlights}
    (hscrapes : ∀ {nodes view view'}, Scrapes nodes view view' → ∀ n ∈ view', n ∈ nodes ∨ n ∈ view)
    (htable : SlotTable a.table) (hview : ViewListed a.view) (h : SlotStep Scrapes Works a b) :
    ViewListed b.view := by
  cases h with
  | scrape h => exact fun n hn => (hscrapes h n hn).elim (htable.listed n) (hview n)
  | ends => exact viewListed_nil
  | starts => exact viewListed_nil
  | done _ => exact hview
  | fails => exact hview

theorem mem_of_oneByOne {view' : List NodeState} (h : OneByOne nodes view view') :
    ∀ n ∈ view', n ∈ nodes ∨ n ∈ view := by
  obtain ⟨seen, hseen, rfl⟩ := h
  intro n hn
  rcases List.mem_append.mp hn with hn | hn
  · exact .inr hn
  · exact .inl (List.mem_singleton.mp hn ▸ hseen)

theorem mem_of_atOnce {view' : List NodeState} (h : AtOnce nodes view view') :
    ∀ n ∈ view', n ∈ nodes ∨ n ∈ view := by
  obtain ⟨answers, rfl⟩ := h
  exact fun n hn => .inl (List.mem_of_mem_filter hn)

end Runs

/-! ## Passes with nothing to scale in -/

/-- No node of a pass is to go. -/
structure NothingToScaleIn (shards : Int) (s : PassState) : Prop where
  replicas : surplusReplicas s.cluster s.nodes = []
  removed : removedShardNodes shards s.nodes = []
  wanted : s.cluster.spec.shards.toInt = shards

theorem shard_of_positionsByIP {nodes : List ValkeyNode} {ip : Str} {pos : NodePosition}
    (h : (positionsByIP nodes).lookup ip = some pos) :
    ∃ n ∈ nodes, n.shardLabel = some pos.shard := by
  rcases Inserts.mem_of_lookup h with ⟨entry, hentry, -, hpos⟩ | hempty
  · obtain ⟨n, hn, hposition⟩ := List.mem_filterMap.mp hentry
    unfold positionOf at hposition
    split at hposition
    · cases hposition
    · split at hposition
      · rename_i shard node hshard hnode
        cases hposition
        exact ⟨n, hn, hshard.trans (congrArg some (congrArg NodePosition.shard hpos))⟩
      · cases hposition
  · simp at hempty

theorem drainingShardPrimaries_of_removed {state : ClusterState} {nodes : List ValkeyNode}
    {want : Int} (h : removedShardNodes want nodes = []) :
    drainingShardPrimaries S state (positionsByIP nodes) want = [] := by
  refine drainingShardPrimaries_eq_nil.mpr fun hvisible => ?_
  obtain ⟨shard, -, p, -, -, pos, hpos, hge⟩ := hvisible
  obtain ⟨n, hn, hlabel⟩ := shard_of_positionsByIP hpos
  have hmem := mem_removedShardNodes.mpr ⟨hn, _, hlabel, hge⟩
  rw [h] at hmem
  cases hmem

theorem NothingToScaleIn.handleScaleIn {s : PassState} (h : NothingToScaleIn shards s)
    (S : Sorter ValkeyNode) (S' : Sorter NodeState) (state : ClusterState) :
    handleScaleIn S S' s.cluster state s.nodes = .nothing := by
  have hremoved := h.wanted ▸ h.removed
  have hsurplus : deleteExcessReplicas S s.cluster s.nodes = none := by
    rw [deleteExcessReplicas, h.replicas, S.sort_eq_nil.mpr rfl]
    rfl
  have hexcess : excessShardNodes S s.nodes s.cluster.spec.shards.toInt = [] := by
    rw [excessShardNodes, hremoved]
    exact S.sort_eq_nil.mpr rfl
  unfold Cluster.handleScaleIn deleteDrainedShardNodes
  simp only [hsurplus, drainingShardPrimaries_of_removed hremoved, hexcess]

theorem NothingToScaleIn.sent {s : PassState} (h : NothingToScaleIn shards s) {env : PassInputs}
    {o : ObjectMeta} (hsent : sentMove env o s view = some m) :
    planRebalanceMove env.stateSorter (newClusterState view) shards = some m := by
  rcases (sentMove_eq_some hsent).2 with hscale | ⟨-, hplan⟩
  · rw [h.handleScaleIn] at hscale
    cases hscale
  · rwa [h.wanted] at hplan

theorem primaries_filter (nodes : List NodeState) (answers : NodeState → Bool) :
    (primaries (nodes.filter answers)).Sublist (primaries nodes) :=
  List.filter_sublist.filter _

theorem toldApart_filter (h : ToldApart nodes) (answers : NodeState → Bool) :
    ToldApart (nodes.filter answers) := by
  have hprimaries := primaries_filter nodes answers
  exact ⟨⟨h.ids.sublist (List.filter_sublist.map _), h.addrs.sublist (hprimaries.map _),
    h.shards.sublist (hprimaries.map _)⟩, fun n hn => h.named n (List.mem_of_mem_filter hn)⟩

theorem effectiveShards_eq (S S' : Sorter NodeState) (hview : ToldApart view)
    (hnodes : ToldApart nodes) (hsame : primaries view = primaries nodes) :
    effectiveShards S (newClusterState view) = effectiveShards S' (newClusterState nodes) := by
  have hperm := (effectiveShards_perm S hview).trans
    (hsame ▸ (effectiveShards_perm S' hnodes).symm)
  refine hperm.eq_of_pairwise ?_ (effectiveShards_ascending S hview)
    (effectiveShards_ascending S' hnodes)
  intro a b _ _ hab hba
  exact absurd hba (lt_asymm hab)

/-- Where the wanted shards are all there, a pass that has scraped a part of the nodes plans
the move that the whole table asks for, or none. -/
theorem planRebalanceMove_of_view {S' : Sorter NodeState} (h : ToldApart nodes)
    (answers : NodeState → Bool)
    (hplan : planRebalanceMove S (newClusterState (nodes.filter answers))
      (primaries nodes).length = some m) :
    planRebalanceMove S' (newClusterState nodes) (primaries nodes).length = some m := by
  have hview := toldApart_filter h answers
  have hsame : primaries (nodes.filter answers) = primaries nodes := by
    refine (primaries_filter nodes answers).eq_of_length ?_
    rw [planRebalanceMove_eq S hview] at hplan
    split at hplan
    · cases hplan
    · rename_i hcount
      exact Int.ofNat.inj (not_not.mp (not_or.mp hcount).2)
  unfold planRebalanceMove at hplan ⊢
  rwa [effectiveShards_eq S S' hview h hsame] at hplan

def ShardTable (shards : Int) (nodes : List NodeState) : Prop :=
  ToldApart nodes ∧ ((primaries nodes).length : Int) = shards

theorem ShardTable.applied {nodes' : List NodeState} (h : ShardTable shards nodes)
    (happlied : m.Applied nodes nodes') : ShardTable shards nodes' := by
  obtain ⟨f, rfl, hf⟩ := happlied
  refine ⟨h.1.map hf, ?_⟩
  rw [primaries_map_carried hf, List.length_map]
  exact h.2

/-- The tables on which the rebalance runs. -/
def rebalanceTransfers (shards : Int) : Transfers (List NodeState) Move :=
  slotTransfers (fun slot => 0 ≤ slot ∧ slot ≤ maxSlot) (ShardTable shards) ShardTable.applied

theorem rebalance_deciding (S : Sorter NodeState) (shards : Int) :
    Deciding (rebalanceTransfers shards) (passPlanner AtOnce (NothingToScaleIn shards))
      fun nodes => planRebalanceMove S (newClusterState nodes) shards where
  decides h hsees hplan := by
    obtain ⟨-, -, happart, rfl⟩ := h
    obtain ⟨env, o, s, hworks, hsent⟩ := hplan
    rcases hsees with ⟨answers, rfl⟩ | rfl
    · exact planRebalanceMove_of_view happart answers (hworks.sent hsent)
    · -- no node has been scraped: the same as when none answers
      refine planRebalanceMove_of_view (S := env.stateSorter) happart (fun _ => false) ?_
      rw [List.filter_false]
      exact hworks.sent hsent
  blank m hplan := by
    obtain ⟨env, o, s, hworks, hsent⟩ := hplan
    have hbatch := takesBatch_of_rebalance (hworks.sent hsent)
    obtain ⟨src, hsrc, -⟩ := hbatch
    cases hsrc
  clash_self _ := rfl
  spent h hm _ happlied := hm.spent h.1 happlied

theorem RebalanceRun.of_serial {start : List NodeState} {moves : List Move}
    (h : Serial (fun nodes => planRebalanceMove S (newClusterState nodes) shards) Move.Applied start
      moves nodes) : RebalanceRun S shards start moves nodes := by
  induction h with
  | start => exact .start
  | move _ hplanned happlied ih => exact .move ih hplanned happlied

/-! ## Two primaries -/

/-- The node has met the others. -/
def met (n : NodeState) : NodeState :=
  { n with peers := (lopsided.map (·.id)).foldl (fun m id => m.insert id ⟨id, [], []⟩) ∅ }

def metPair : List NodeState := lopsided.map met

theorem toldApart_metPair : ToldApart metPair := ⟨⟨by decide, by decide, by decide⟩, by decide⟩

theorem exactPartition_metPair : ExactPartition metPair := by
  have h := exactPartition_lopsided
  have hprimaries : primaries metPair = (primaries lopsided).map met := primaries_map fun _ _ => rfl
  refine ⟨?_, fun slot => ?_⟩
  · rw [hprimaries]
    exact .of_map h.exclusive.ordered h.exclusive.nodup h.exclusive.unique
  · rw [hprimaries, ← h.covers slot]
    simp [Owned, met]

theorem viewListed_metPair : ViewListed metPair := by
  have hprimaries : primaries metPair = metPair := by decide
  intro n hn
  rw [← hprimaries] at hn
  exact ⟨exactPartition_metPair.exclusive.ordered n hn, exactPartition_metPair.exclusive.nodup n hn⟩

/-- A pass over two shards without replicas. -/
def metPass : PassState where
  board := ⟨{}, {}⟩
  cluster := { name := "prod", spec := { shards := 2, replicas := 0 } }
  finalizers := true
  nodes := []
  leaving := []

theorem nothingToScaleIn_metPass : NothingToScaleIn (primaries metPair).length metPass :=
  ⟨rfl, rfl, by decide⟩

/-- A pass that has scraped both starts a migration. -/
theorem exists_started (Scrapes : List NodeState → List NodeState → List NodeState → Prop) :
    ∃ m, SlotStep Scrapes (NothingToScaleIn (primaries metPair).length)
      ⟨metPair, [], metPair⟩ ⟨metPair, [m], []⟩ := by
  let env := quietInputs fun _ => (pairPrimary, false)
  have hsome : (sentMove env ⟨1, false⟩ metPass metPair).isSome = true := by decide
  obtain ⟨m, hm⟩ := Option.isSome_iff_exists.mp hsome
  have hplan := nothingToScaleIn_metPass.sent hm
  obtain ⟨src, dst, hplanned⟩ :=
    planRebalanceMove_planned toldApart_metPair exactPartition_metPair.exclusive hplan
  have hasked : env.migrations = migrationsReported (.ok []) := rfl
  refine ⟨m, .starts nothingToScaleIn_metPass hm hasked ?_ ?_⟩
  · intro entries _ hrunning
    obtain ⟨k, hk, -⟩ := hrunning
    cases hk
  · exact ⟨src, hplanned.src_mem, dst, hplanned.dst_mem, hplanned.between.srcID,
      hplanned.between.dstID, hplanned.between.ne, hplanned.between.owned⟩

/-! ## Whole runs -/

/-- However the passes, the scrapes of single nodes and the migrations interleave, and
whatever the spec and the nodes of each pass: no slot gets two owners and none is lost,
each running migration takes 1 to 400 slots that its source still owns to a primary that
owns none of them, and two that run have different sources and no slot in common. -/
theorem migrations_never_meet {Works : PassState → Prop} {nodes : List NodeState}
    (h : SlotTable nodes) {s : SlotFlights}
    (hrun : Relation.ReflTransGen (SlotStep OneByOne Works) ⟨nodes, [], []⟩ s) :
    Exclusive (primaries s.table) ∧
    (∀ slot, Owned (primaries s.table) slot ↔ Owned (primaries nodes) slot) ∧
    (∀ m ∈ s.running, 1 ≤ m.numSlots ∧ m.numSlots ≤ 400 ∧
      ∃ src ∈ primaries s.table, ∃ dst ∈ primaries s.table, m.Between src dst) ∧
    s.running.Pairwise fun a b => a.srcID ≠ b.srcID ∧
      ∀ slot, Covers a.ranges slot → ¬ Covers b.ranges slot := by
  have hinv : Steady (slotTransfers (Owned (primaries nodes)) (fun _ => True) fun h _ => h) s ∧
      ViewListed s.view := by
    induction hrun with
    | refl => exact ⟨⟨⟨h, fun _ => Iff.rfl, trivial⟩, nofun, .nil⟩, viewListed_nil⟩
    | tail _ hstep ih =>
      have htable := ih.1.sound.1
      exact ⟨ih.1.step (hstep.flies _ htable ih.2), hstep.viewListed mem_of_oneByOne htable ih.2⟩
  obtain ⟨⟨⟨htable, howned, -⟩, hvalid, hapart⟩, -⟩ := hinv
  refine ⟨htable.exclusive, howned, fun m hm => ?_, ?_⟩
  · exact ⟨(hvalid m hm).2.1, (hvalid m hm).2.2, (hvalid m hm).1⟩
  · refine hapart.imp_of_mem fun {a b} ha hb hne => ⟨hne, ?_⟩
    exact htable.disjoint (hvalid a ha) (hvalid b hb) hne

theorem migrations_never_meet_metPair :
    ∃ m, Relation.ReflTransGen (SlotStep OneByOne (NothingToScaleIn (primaries metPair).length))
        ⟨metPair, [], []⟩ ⟨metPair, [m], []⟩ ∧
      1 ≤ m.numSlots ∧ m.numSlots ≤ 400 := by
  obtain ⟨m, hm⟩ := exists_started OneByOne
  have hrun : Relation.ReflTransGen
      (SlotStep OneByOne (NothingToScaleIn (primaries metPair).length))
      ⟨metPair, [], []⟩ ⟨metPair, [m], []⟩ :=
    ((Relation.ReflTransGen.single (.scrape ⟨_, List.mem_cons_self, rfl⟩)).tail
      (.scrape ⟨_, List.mem_cons_of_mem _ List.mem_cons_self, rfl⟩)).tail hm
  have htable : SlotTable metPair :=
    ⟨toldApart_metPair.ids, viewListed_metPair, exactPartition_metPair.exclusive.unique⟩
  have h := (migrations_never_meet htable hrun).2.2.1 m List.mem_cons_self
  exact ⟨m, hrun, h.1, h.2.1⟩

/-- With nothing to scale in, passes that scrape any part of the nodes and migrations that
take any time come to what the planner does when each of its moves takes effect at once: the
tables are those of its runs, so no more migrations are done than there are slots above
target; and never does more than one run, the one the planner asks for at that moment. -/
theorem rebalance_in_flight (S : Sorter NodeState) {start : List NodeState}
    (happart : ToldApart start) (hpart : ExactPartition start) (hlisted : ViewListed start)
    {s : SlotFlights}
    (hrun : Relation.ReflTransGen
      (SlotStep AtOnce (NothingToScaleIn (primaries start).length)) ⟨start, [], []⟩ s) :
    (∃ moves, RebalanceRun S (primaries start).length start moves s.table ∧
      moves.length ≤ surplus start) ∧
    ExactPartition s.table ∧
    (s.running = [] ∨ ∃ m, s.running = [m] ∧
      planRebalanceMove S (newClusterState s.table) (primaries start).length = some m) := by
  have hdeciding := rebalance_deciding S (primaries start).length
  have hsound : (rebalanceTransfers (primaries start).length).Sound start :=
    ⟨⟨happart.ids, hlisted, hpart.exclusive.unique⟩, hpart.covers, happart, rfl⟩
  have hinv : ViewListed s.view ∧
      Relation.ReflTransGen (InFlight.Step (rebalanceTransfers (primaries start).length)
        (passPlanner AtOnce (NothingToScaleIn (primaries start).length))) ⟨start, [], []⟩ s := by
    induction hrun with
    | refl => exact ⟨viewListed_nil, .refl⟩
    | tail _ hstep ih =>
      have htable := (Single.run hdeciding hsound ih.2).1.sound.1
      exact ⟨hstep.viewListed mem_of_atOnce htable ih.1, ih.2.tail (hstep.flies _ htable ih.1)⟩
  obtain ⟨-, hsingle⟩ := Single.run hdeciding hsound hinv.2
  obtain ⟨moves, hserial⟩ := hsingle.serial
  have hrebalance := RebalanceRun.of_serial hserial
  have hfacts := hrebalance.facts happart hpart
  refine ⟨⟨moves, hrebalance, ?_⟩, hfacts.partition, hsingle.one⟩
  have := hfacts.bound
  omega

theorem rebalance_in_flight_metPair :
    ∃ m, Relation.ReflTransGen (SlotStep AtOnce (NothingToScaleIn (primaries metPair).length))
        ⟨metPair, [], []⟩ ⟨metPair, [m], []⟩ ∧
      planRebalanceMove .insertion (newClusterState metPair) (primaries metPair).length =
        some m := by
  obtain ⟨m, hm⟩ := exists_started AtOnce
  have hrun : Relation.ReflTransGen (SlotStep AtOnce (NothingToScaleIn (primaries metPair).length))
      ⟨metPair, [], []⟩ ⟨metPair, [m], []⟩ :=
    (Relation.ReflTransGen.single
      (.scrape ⟨fun _ => true, (List.filter_eq_self.mpr fun _ _ => rfl).symm⟩)).tail hm
  refine ⟨m, hrun, ?_⟩
  rcases (rebalance_in_flight .insertion toldApart_metPair exactPartition_metPair
    viewListed_metPair hrun).2.2 with hnone | ⟨k, hk, hplan⟩
  · cases hnone
  · cases hk
    exact hplan

end ValkeyOperator.Cluster

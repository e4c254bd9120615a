import ValkeyOperator.Cluster.Frozen
import ValkeyOperator.Cluster.Gates

/-! The teardown of a cluster from its first pass to the last (`finalizer.go`).

A pass asks for the deletion of the node that is first in teardown order among those not
yet leaving. Nodes only leave, so what is asked for later comes behind, however long the
nodes take to go away. -/

namespace ValkeyOperator.Cluster
open Text Valkey Api

variable {leaving : List Str} {nodes : List ValkeyNode} {S : Sorter ValkeyNode} {t : Teardown}
  {n : ValkeyNode}

/-- Teardown order: the higher shard first, and within a shard the higher node index. -/
def Precedes (a b : ValkeyNode) : Prop :=
  shardIndexOf b < shardIndexOf a ∨ shardIndexOf b = shardIndexOf a ∧ nodeIndexOf b < nodeIndexOf a

/-! ## Runs -/

structure Teardown where
  world : ClusterWorld
  /-- the nodes whose deletion the passes have asked for, in this order -/
  asked : List ValkeyNode := []

inductive TeardownEvent where
  /-- with `arrived` a deletion takes effect though the call reports an error -/
  | pass (env : PassInputs) (arrived : Bool)
  /-- the deletion of a node asked for by others -/
  | mark (name : Str)
  | vanish (keep : ValkeyNode → Bool)
  | report (status : ValkeyNode → ValkeyNodeStatus)
  | edit (spec : ClusterSpec) (crVersion configHash : Str)

/-- The node whose deletion a pass asks for, whatever comes of the call. -/
def deleteCall (env : PassInputs) (w : ClusterWorld) : Option ValkeyNode :=
  match (w.reconcile { env with delete := none }).effect with
  | .delete n => some n
  | _ => none

namespace Teardown

def pass (t : Teardown) (env : PassInputs) (arrived : Bool) : Teardown :=
  let world := t.world.after (t.world.reconcile env)
  match deleteCall env t.world with
  | some n =>
    if env.delete.isNone || arrived then
      { world := { world with leaving := n.name :: t.world.leaving }, asked := t.asked ++ [n] }
    else { t with world := world }
  | none => { t with world := world }

def step (t : Teardown) : TeardownEvent → Teardown
  | .pass env arrived => t.pass env arrived
  | .mark name => { t with world := { t.world with leaving := name :: t.world.leaving } }
  | .vanish keep => { t with world := t.world.step (.vanish keep) }
  | .report status => { t with world := t.world.step (.report status) }
  | .edit spec crVersion configHash => { t with world := t.world.step (.edit spec crVersion configHash) }

end Teardown

/-! ## One pass -/

theorem compares_byTeardown : Compares byTeardown := by
  have h := (Compares.ofKey fun n : ValkeyNode => -shardIndexOf n).andThen
    (Compares.ofKey fun n => -nodeIndexOf n)
  have heq : byTeardown = fun a b =>
      if -shardIndexOf a - -shardIndexOf b ≠ 0 then -shardIndexOf a - -shardIndexOf b
      else -nodeIndexOf a - -nodeIndexOf b := by
    funext a b
    unfold byTeardown
    split <;> split <;> omega
  rw [heq]
  exact h

theorem precedes_of_byTeardown {a b : ValkeyNode} (h : byTeardown a b ≤ 0)
    (hkey : nodeKeyOf a ≠ nodeKeyOf b) : Precedes a b := by
  unfold nodeKeyOf at hkey
  rw [Ne, NodeKey.mk.injEq] at hkey
  unfold byTeardown at h
  unfold Precedes
  split at h <;> omega

/-- What is next precedes all others that are not leaving. -/
theorem nextTeardownNode_precedes (hkeys : (nodes.map nodeKeyOf).Nodup)
    (hnext : nextTeardownNode S nodes leaving = some n) (hfresh : n.name ∉ leaving)
    {m : ValkeyNode} (hm : m ∈ nodes) (hname : m.name ≠ n.name) (hstays : m.name ∉ leaving) :
    Precedes n m := by
  have hfind : (S.sort byTeardown nodes).find? (fun n => !leaving.contains n.name) = some n := by
    unfold nextTeardownNode at hnext
    dsimp only at hnext
    split at hnext
    · rename_i heq
      rw [heq, hnext]
    · rename_i hnone
      have hn := List.find?_eq_none.mp hnone n (List.mem_of_mem_head? hnext)
      simp [hfresh] at hn
  obtain ⟨-, front, back, hsplit, hfront⟩ := List.find?_eq_some_iff_append.mp hfind
  have hsorted := S.sorted byTeardown compares_byTeardown nodes
  have hn : n ∈ nodes := S.mem_sort.mp (List.mem_of_find?_eq_some hfind)
  have hback : m ∈ back := by
    have hmem : m ∈ S.sort byTeardown nodes := S.mem_sort.mpr hm
    rw [hsplit] at hmem
    rcases List.mem_append.mp hmem with hmem | hmem
    · have := hfront m hmem
      simp [hstays] at this
    · refine (List.mem_cons.mp hmem).resolve_left ?_
      rintro rfl
      exact hname rfl
  rw [hsplit] at hsorted
  have hle := (List.pairwise_cons.mp (List.pairwise_append.mp hsorted).2.1).1 m hback
  refine precedes_of_byTeardown hle fun hkey => hname ?_
  rw [List.inj_on_of_nodup_map hkeys hn hm hkey]

theorem mem_of_nextTeardownNode (h : nextTeardownNode S nodes leaving = some n) : n ∈ nodes := by
  unfold nextTeardownNode at h
  dsimp only at h
  split at h
  · rename_i hfind
    exact S.mem_sort.mp (List.mem_of_find?_eq_some (h ▸ hfind))
  · exact S.mem_sort.mp (List.mem_of_mem_head? h)

theorem nextTeardownNode_eq_none (h : nextTeardownNode S nodes leaving = none) : nodes = [] := by
  unfold nextTeardownNode at h
  dsimp only at h
  split at h
  · cases h
  · exact S.sort_eq_nil.mp (List.head?_eq_none_iff.mp h)

/-- No node is added or taken away, and only the finalizers of a cluster without nodes are
given up. -/
structure KeepsNodes (s s' : PassState) : Prop where
  nodes : s'.nodes = s.nodes
  leaving : s.leaving ⊆ s'.leaving
  finalizers : s.finalizers = true → s'.finalizers = false → s.nodes = []

theorem KeepsNodes.of_eq {s s' : PassState} (hnodes : s'.nodes = s.nodes)
    (hleaving : s.leaving ⊆ s'.leaving) (hfinalizers : s'.finalizers = s.finalizers) :
    KeepsNodes s s' where
  nodes := hnodes
  leaving := hleaving
  finalizers hbefore hafter := by
    rw [hfinalizers, hbefore] at hafter
    cases hafter

theorem handleDeletion_keepsNodes (env : PassInputs) (o : ObjectMeta) (s : PassState) :
    KeepsNodes s (handleDeletion env o s).pass := by
  have hsame := List.Subset.refl s.leaving
  unfold handleDeletion
  split
  · exact .of_eq rfl hsame rfl
  split
  · exact .of_eq rfl hsame rfl
  split
  · split
    · exact .of_eq rfl hsame rfl
    · unfold PassState.delete
      cases env.delete with
      | some e => exact .of_eq rfl hsame rfl
      | none => exact .of_eq rfl (List.subset_cons_self _ _) rfl
  · rename_i hnone
    split
    · exact .of_eq rfl hsame rfl
    · exact ⟨rfl, hsame, fun _ _ => nextTeardownNode_eq_none hnone⟩

theorem reconcile_keepsNodes (env : PassInputs) {w : ClusterWorld} (hdeleting : w.deleting = true) :
    KeepsNodes w.start (w.reconcile env).pass := by
  cases hgate : gateStage env w.objectMeta (w.contract env) w.start with
  | error e =>
    obtain ⟨board, hend⟩ := (endsAtGate_of_error hgate).kept
    rw [hend]
    exact .of_eq rfl (List.Subset.refl _) rfl
  | ok s =>
    obtain ⟨-, -, rfl⟩ := gateStage_eq_ok.mp hgate
    rw [reconcile_teardown hdeleting hgate]
    exact handleDeletion_keepsNodes env _ _

theorem next_of_deleteCall {env : PassInputs} {w : ClusterWorld} (hdeleting : w.deleting = true)
    (h : deleteCall env w = some n) :
    nextTeardownNode env.nodeSorter w.nodes w.leaving = some n ∧ n.name ∉ w.leaving := by
  have heffect : (w.reconcile { env with delete := none }).effect = .delete n := by
    unfold deleteCall at h
    split at h
    · rename_i heq
      rw [heq, Option.some.inj h]
    · cases h
  cases hgate : gateStage { env with delete := none } w.objectMeta
      (w.contract { env with delete := none }) w.start with
  | error e =>
    obtain ⟨board, hend⟩ := (endsAtGate_of_error hgate).kept
    rw [hend] at heffect
    cases heffect
  | ok s =>
    obtain ⟨-, -, rfl⟩ := gateStage_eq_ok.mp hgate
    rcases handleDeletion_ends hgate hdeleting (reconcile_teardown hdeleting hgate).symm with
      ⟨hhalted, -⟩ | ⟨m, htorn⟩
    · rw [hhalted.effect] at heffect
      cases heffect
    · rw [htorn.effect] at heffect
      cases heffect
      exact ⟨htorn.due.next, by simpa using htorn.due.fresh⟩

/-! ## The whole teardown -/

/-- What the passes so far have asked for comes before all that they may still ask for. -/
structure Descends (t : Teardown) : Prop where
  deleting : t.world.deleting = true
  keys : (t.world.nodes.map nodeKeyOf).Nodup
  order : t.asked.Pairwise Precedes
  names : (t.asked.map (·.name)).Nodup
  left : ∀ a ∈ t.asked, a.name ∈ t.world.leaving
  ahead : ∀ a ∈ t.asked, ∀ n ∈ t.world.nodes, n.name ∉ t.world.leaving → Precedes a n

theorem Precedes.congr {a m : ValkeyNode} (h : Precedes a n) (hkey : nodeKeyOf m = nodeKeyOf n) :
    Precedes a m := by
  obtain ⟨hshard, hnode⟩ := NodeKey.mk.inj hkey
  unfold Precedes at h ⊢
  rw [hshard, hnode]
  exact h

theorem Descends.shrink (h : Descends t) {v : ClusterWorld}
    (hdeleting : v.deleting = t.world.deleting)
    (hkeys : (v.nodes.map nodeKeyOf).Sublist (t.world.nodes.map nodeKeyOf))
    (hnodes : ∀ n ∈ v.nodes, ∃ m ∈ t.world.nodes, n.name = m.name ∧ nodeKeyOf n = nodeKeyOf m)
    (hleaving : t.world.leaving ⊆ v.leaving) : Descends { t with world := v } where
  deleting := hdeleting.trans h.deleting
  keys := h.keys.sublist hkeys
  order := h.order
  names := h.names
  left a ha := hleaving (h.left a ha)
  ahead a ha n hn hstays := by
    obtain ⟨m, hm, hname, hkey⟩ := hnodes n hn
    exact (h.ahead a ha m hm fun hmem => hstays (hname ▸ hleaving hmem)).congr hkey

theorem Descends.ask (h : Descends t)
    (hnext : nextTeardownNode S t.world.nodes t.world.leaving = some n)
    (hfresh : n.name ∉ t.world.leaving) {v : ClusterWorld}
    (hdeleting : v.deleting = t.world.deleting) (hnodes : v.nodes = t.world.nodes)
    (hleaving : v.leaving = n.name :: t.world.leaving) :
    Descends { world := v, asked := t.asked ++ [n] } where
  deleting := hdeleting.trans h.deleting
  keys := by
    dsimp only
    rw [hnodes]
    exact h.keys
  order := by
    refine List.pairwise_append.mpr ⟨h.order, List.pairwise_singleton _ _, fun a ha b hb => ?_⟩
    rw [List.mem_singleton.mp hb]
    exact h.ahead a ha n (mem_of_nextTeardownNode hnext) hfresh
  names := by
    rw [List.map_append, List.nodup_append]
    refine ⟨h.names, List.nodup_singleton _, fun name hname other hother heq => hfresh ?_⟩
    obtain ⟨a, ha, rfl⟩ := List.mem_map.mp hname
    rw [List.map_singleton, List.mem_singleton] at hother
    rw [← hother, ← heq]
    exact h.left a ha
  left a ha := by
    dsimp only
    rw [hleaving]
    rcases List.mem_append.mp ha with ha | ha
    · exact List.mem_cons_of_mem _ (h.left a ha)
    · rw [List.mem_singleton.mp ha]
      exact List.mem_cons_self
  ahead a ha m hm hstays := by
    dsimp only at hm hstays
    rw [hnodes] at hm
    rw [hleaving, List.mem_cons, not_or] at hstays
    rcases List.mem_append.mp ha with ha | ha
    · exact h.ahead a ha m hm hstays.2
    · rw [List.mem_singleton.mp ha]
      exact nextTeardownNode_precedes h.keys hnext hfresh hm hstays.1 hstays.2

theorem Descends.pass (h : Descends t) (env : PassInputs) (arrived : Bool) :
    Descends (t.pass env arrived) := by
  have hkeeps := reconcile_keepsNodes env h.deleting
  have hquiet : Descends { t with world := t.world.after (t.world.reconcile env) } := by
    have hnodes : (t.world.reconcile env).pass.nodes = t.world.nodes := hkeeps.nodes
    refine h.shrink rfl ?_ (fun n hn => ⟨n, hnodes ▸ hn, rfl, rfl⟩) hkeeps.leaving
    exact congrArg (List.map nodeKeyOf) hnodes ▸ List.Sublist.refl _
  unfold Teardown.pass
  dsimp only
  cases hcall : deleteCall env t.world with
  | none => exact hquiet
  | some n =>
    dsimp only
    obtain ⟨hnext, hfresh⟩ := next_of_deleteCall h.deleting hcall
    split
    · exact h.ask hnext hfresh rfl hkeeps.nodes rfl
    · exact hquiet

theorem Descends.step (h : Descends t) (event : TeardownEvent) : Descends (t.step event) := by
  have hsame := List.Subset.refl t.world.leaving
  cases event with
  | pass env arrived => exact h.pass env arrived
  | mark name =>
    exact h.shrink rfl (List.Sublist.refl _) (fun n hn => ⟨n, hn, rfl, rfl⟩)
      (List.subset_cons_self _ _)
  | vanish keep =>
    exact h.shrink rfl (List.filter_sublist.map _)
      (fun n hn => ⟨n, (List.mem_filter.mp hn).1, rfl, rfl⟩) hsame
  | report status =>
    refine h.shrink rfl ?_ (fun n hn => ?_) hsame
    · change ((t.world.nodes.map fun n => { n with status := status n }).map nodeKeyOf).Sublist _
      rw [List.map_map]
      exact List.Sublist.refl _
    · obtain ⟨m, hm, rfl⟩ := List.mem_map.mp hn
      exact ⟨m, hm, rfl, rfl⟩
  | edit spec crVersion configHash =>
    exact h.shrink rfl (List.Sublist.refl _) (fun n hn => ⟨n, hn, rfl, rfl⟩) hsame

/-- Only a pass that finds no node gives up the finalizers. -/
theorem Teardown.step_finalizers (hdeleting : t.world.deleting = true) (event : TeardownEvent)
    (hbefore : t.world.finalizers = true) (hafter : (t.step event).world.finalizers = false) :
    (∃ env arrived, event = .pass env arrived) ∧ t.world.nodes = [] := by
  cases event with
  | pass env arrived =>
    refine ⟨⟨env, arrived, rfl⟩, (reconcile_keepsNodes env hdeleting).finalizers hbefore ?_⟩
    change (t.pass env arrived).world.finalizers = false at hafter
    unfold Teardown.pass at hafter
    dsimp only at hafter
    split at hafter
    · split at hafter <;> exact hafter
    · exact hafter
  | mark name => exact absurd (hbefore.symm.trans hafter) (by decide)
  | vanish keep => exact absurd (hbefore.symm.trans hafter) (by decide)
  | report status => exact absurd (hbefore.symm.trans hafter) (by decide)
  | edit spec crVersion configHash => exact absurd (hbefore.symm.trans hafter) (by decide)

/-- All along a teardown the deletions are asked for in teardown order, none twice, and the
finalizers go in a pass that finds no node. -/
theorem teardown_ordered {w : ClusterWorld} {t : Teardown} (hdeleting : w.deleting = true)
    (hkeys : (w.nodes.map nodeKeyOf).Nodup)
    (hrun : Runs Teardown.step (fun _ _ => True) { world := w } t) :
    t.asked.Pairwise Precedes ∧ (t.asked.map (·.name)).Nodup ∧
      ∀ event, t.world.finalizers = true → (t.step event).world.finalizers = false →
        (∃ env arrived, event = .pass env arrived) ∧ t.world.nodes = [] := by
  have hstart : Descends { world := w } :=
    ⟨hdeleting, hkeys, .nil, List.nodup_nil, List.forall_mem_nil _, List.forall_mem_nil _⟩
  have h : Descends t := Runs.preserves (fun _ event _ ht => ht.step event) hrun hstart
  exact ⟨h.order, h.names, Teardown.step_finalizers h.deleting⟩

/-- A pair that is torn down: the replica goes while the primary is still asked for. -/
theorem teardown_ordered_pair :
    let w := { pairWorld pairCluster.spec "h1".toList pairNodes with deleting := true, finalizers := true }
    let t := [TeardownEvent.pass (quietInputs pairEngines) false,
      .pass (quietInputs pairEngines) false].foldl Teardown.step { world := w }
    t.asked.map (·.name) = ["prod-0-1".toList, "prod-0-0".toList] ∧ t.asked.Pairwise Precedes := by
  intro w t
  refine ⟨by decide +kernel, ?_⟩
  exact (teardown_ordered (w := w) rfl (by decide +kernel)
    (Runs.of_events (fun _ _ => trivial) _ _)).1

end ValkeyOperator.Cluster

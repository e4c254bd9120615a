import ValkeyOperator.Backup.Primaries
import ValkeyOperator.Cluster.Reform
import ValkeyOperator.Restore.Compat
import ValkeyOperator.Restore.Reseeding

/-! The slot map of a restored cluster.

The primary at position `i` loads the dump that the manifest lists under index `i`,
claims the slots its keys are in, and is given the rest of the `i`-th even range. So
the manifest's slot map comes back exactly if it is the even split in the order of
the indices; a source that was rebalanced, or whose addresses rank its shards in
another order, is not reproduced. -/

namespace ValkeyOperator.Restore
open Text Valkey Api
open Cluster

/-! ## What the manifest records -/

/-- The fragment a download of shard `i` reads. -/
def findShard (man : Backup.Manifest) (i : Int) : Option Backup.ShardManifest :=
  man.shards.find? fun sh => sh.index = i

/-- The ranges recorded for shard `i`. -/
def recorded (man : Backup.Manifest) (i : Int) : Option (List SlotRange) :=
  (findShard man i).bind fun sh => (parseManifestSlotRanges sh.slotRanges).toOption

/-- Each of the `k` shards is recorded with its share of the even split. -/
def EvenMap (man : Backup.Manifest) (k : Int) : Prop :=
  ∀ i, 0 ≤ i → i < k → ∀ ranges, recorded man i = some ranges →
    ∀ s, Covers ranges s ↔ InShare k.toNat i.toNat s

/-! ## Re-forming -/

section Reforming

variable (man : Backup.Manifest) (cluster : PerconaValkeyCluster)
  -- where the pod of the engine with an ID belongs
  (place : Str → NodePosition)

/-- The slot is one of those recorded for the shard whose primary is at the position. -/
def Claims (pos : NodePosition) (s : Int) : Prop :=
  pos.isPrimary = true ∧ ∃ ranges, recorded man pos.shard = some ranges ∧ Covers ranges s

/-- The engines of the restored cluster: at most one at a position, and a primary only
where the seeding found its shard in the manifest. -/
structure Placed (nodes : List NodeState) : Prop where
  apart : (nodes.map fun n => place n.id).Nodup
  inside : ∀ n ∈ nodes, 0 ≤ (place n.id).shard ∧ (place n.id).shard < cluster.spec.shards.toInt
  seeded : ∀ n ∈ nodes, (place n.id).isPrimary = true →
    ∃ ranges, recorded man (place n.id).shard = some ranges
  ordered : ∀ n ∈ nodes, Ordered n.slots

/-- A pass: which engines it has scraped, what the nodes' statuses say about their
addresses, and which of them it manages to introduce to each other. -/
structure ReformPass (nodes : List NodeState) where
  scraped : List NodeState
  vnodes : List ValkeyNode
  S : Sorter SlotRange
  byAddr : Sorter NodeState
  introduced : NodeState → Bool
  seen : ∀ n ∈ scraped, n ∈ nodes
  truthful : ∀ n ∈ scraped, ∀ pos, positionFor (positionsByIP vnodes) n = some pos →
    pos = place n.id

namespace ReformPass

variable {cluster place} {nodes : List NodeState} (p : ReformPass place nodes)

def state : ClusterState := newClusterState p.scraped

def met : Nat := meetAllRestoreNodes p.byAddr p.state p.introduced

/-- The commands sent, given the replies. -/
def sent (cluster : PerconaValkeyCluster) (replies : List (Option Err)) :
    List (NodeState × Command) :=
  ((reformRestoreTarget p.S cluster p.state p.vnodes p.met).after ⟨[], replies⟩).sent

theorem state_nodes : p.state.nodes = p.scraped := newClusterState_nodes p.scraped

theorem mem_sent {replies : List (Option Err)} {c : NodeState × Command}
    (h : c ∈ p.sent cluster replies) :
    c ∈ reformRequests p.S cluster p.state p.vnodes p.met := by
  obtain ⟨_, hissues⟩ := reformRestoreTarget_issues p.S cluster p.state p.vnodes p.met
  exact hissues.forall_sent_iff.mpr (fun c hc => hc) replies c h

theorem sent_nil : p.sent cluster [] = reformRequests p.S cluster p.state p.vnodes p.met := by
  obtain ⟨_, hissues⟩ := reformRestoreTarget_issues p.S cluster p.state p.vnodes p.met
  unfold sent
  rw [(hissues.all []).after_eq, List.nil_append]

end ReformPass

inductive ReformStep (nodes nodes' : List NodeState) : Prop where
  /-- engines come, go, start over and meet; one that loads its dump claims slots of it -/
  | load (placed : Placed man cluster place nodes')
      (owns : ∀ n' ∈ nodes', ∀ s, Covers n'.slots s →
        (∃ n ∈ nodes, n.id = n'.id ∧ Covers n.slots s) ∨ Claims man (place n'.id) s)
  /-- a pass, of whose commands some take effect -/
  | pass (p : ReformPass place nodes) (replies : List (Option Err))
      (taken : List (NodeState × Command)) (sent : ∀ c ∈ taken, c ∈ p.sent cluster replies)
      (effect : TakesEffect taken nodes nodes')

/-- What a pass over the engines asks for completes the recorded slot map, and nothing
of it is owned by another engine it has scraped. -/
structure Reproduces (nodes : List NodeState) : Prop where
  exact : ∀ p : ReformPass place nodes, p.met = 0 → ∀ n ∈ p.scraped,
    positionFor (positionsByIP p.vnodes) n = some (place n.id) → (place n.id).isPrimary = true →
    ∀ ranges, recorded man (place n.id).shard = some ranges →
      ∀ s, (Covers n.slots s ∨ AddsSlot (p.sent cluster []) n.id s) ↔ Covers ranges s
  apart : ∀ (p : ReformPass place nodes) (replies : List (Option Err)),
    ∀ c ∈ p.sent cluster replies, ∀ ranges, c.2 = .addSlotsRange ranges →
      ∀ s, Covers ranges s → ∀ m ∈ p.scraped, m.id ≠ c.1.id → ¬ Covers m.slots s

end Reforming

/-! ## Even maps come back -/

section Even

variable {man : Backup.Manifest} {cluster : PerconaValkeyCluster} {place : Str → NodePosition}
  {nodes nodes' : List NodeState}

/-- Every engine owns only slots recorded for its shard. -/
structure Faithful (man : Backup.Manifest) (cluster : PerconaValkeyCluster)
    (place : Str → NodePosition) (nodes : List NodeState) : Prop where
  placed : Placed man cluster place nodes
  claims : ∀ n ∈ nodes, ∀ s, Covers n.slots s → Claims man (place n.id) s

theorem Placed.eq_of_place (h : Placed man cluster place nodes) {n m : NodeState}
    (hn : n ∈ nodes) (hm : m ∈ nodes) (heq : place n.id = place m.id) : n = m :=
  List.inj_on_of_nodup_map h.apart hn hm heq

theorem claims_iff (heven : EvenMap man cluster.spec.shards.toInt)
    (h : Placed man cluster place nodes) {n : NodeState} (hn : n ∈ nodes)
    (hprimary : (place n.id).isPrimary = true) (s : Int) :
    Claims man (place n.id) s ↔
      InShare cluster.spec.shards.toInt.toNat (place n.id).shard.toNat s := by
  obtain ⟨hlow, hhigh⟩ := h.inside n hn
  have hshare := heven _ hlow hhigh
  constructor
  · intro ⟨_, ranges, hranges, hs⟩
    exact (hshare ranges hranges s).mp hs
  · intro hs
    obtain ⟨ranges, hranges⟩ := h.seeded n hn hprimary
    exact ⟨hprimary, ranges, hranges, (hshare ranges hranges s).mpr hs⟩

theorem Placed.eq_of_claims (heven : EvenMap man cluster.spec.shards.toInt)
    (h : Placed man cluster place nodes) {n m : NodeState} (hn : n ∈ nodes) (hm : m ∈ nodes)
    {s : Int} (hns : Claims man (place n.id) s) (hms : Claims man (place m.id) s) : n = m := by
  have hshard := ((claims_iff heven h hn hns.1 s).mp hns).unique
    ((claims_iff heven h hm hms.1 s).mp hms)
  have hnlow := (h.inside n hn).1
  have hmlow := (h.inside m hm).1
  have hnode : (place n.id).node = 0 := of_decide_eq_true hns.1
  have hnode' : (place m.id).node = 0 := of_decide_eq_true hms.1
  refine h.eq_of_place hn hm ?_
  rcases hplace : place n.id with ⟨shard, node⟩
  rcases hplace' : place m.id with ⟨shard', node'⟩
  rw [hplace] at hshard hnlow hnode
  rw [hplace'] at hshard hmlow hnode'
  dsimp only at *
  rw [NodePosition.mk.injEq]
  omega

/-- While the pass finds no slot unassigned, every slot has an owner it has scraped. -/
theorem exists_owner (h : Placed man cluster place nodes) (p : ReformPass place nodes)
    (hfull : p.state.getUnassignedSlots = []) {s : Int} (hlow : 0 ≤ s) (hhigh : s ≤ maxSlot) :
    ∃ m ∈ p.scraped, Covers m.slots s := by
  have hordered : Ordered (p.state.shards.flatMap (·.slots)) :=
    newClusterState_ordered fun n hn => h.ordered n (p.seen n hn)
  have hfree : s ∉ p.state.freeSlots := by
    rw [← ClusterState.expand_getUnassignedSlots hordered, hfull]
    exact List.not_mem_nil
  have hcovers : Covers (p.state.shards.flatMap (·.slots)) s := by
    by_contra hnot
    refine hfree (List.mem_filter.mpr ⟨SlotRange.mem_slots.mpr ⟨hlow, hhigh⟩, ?_⟩)
    exact decide_eq_true hnot
  obtain ⟨m, hm, -, hs⟩ := owner_of_shards hcovers
  exact ⟨m, hm, hs⟩

/-- A request is for an engine of the pass, out of what is recorded for its shard. -/
theorem request_claims (heven : EvenMap man cluster.spec.shards.toInt)
    (h : Placed man cluster place nodes) (p : ReformPass place nodes) {n : NodeState}
    {ranges : List SlotRange} {s : Int}
    (hrequest : (n, Command.addSlotsRange ranges) ∈
      reformRequests p.S cluster p.state p.vnodes p.met) (hs : Covers ranges s) :
    n ∈ p.scraped ∧ Claims man (place n.id) s := by
  have hordered : ∀ n ∈ p.state.nodes, Ordered n.slots := by
    rw [p.state_nodes]
    exact fun n hn => h.ordered n (p.seen n hn)
  obtain ⟨hn, -, pos, hpos, hprimary, hshare⟩ := request_inShare hordered hrequest hs
  rw [p.state_nodes] at hn
  obtain rfl := p.truthful n hn pos hpos
  exact ⟨hn, (claims_iff heven h (p.seen n hn) hprimary s).mpr hshare⟩

theorem Faithful.step (heven : EvenMap man cluster.spec.shards.toInt)
    (h : Faithful man cluster place nodes) (hstep : ReformStep man cluster place nodes nodes') :
    Faithful man cluster place nodes' := by
  cases hstep with
  | load placed owns =>
    refine ⟨placed, fun n' hn' s hs => ?_⟩
    rcases owns n' hn' s hs with ⟨n, hn, hid, hold⟩ | hclaims
    · rw [← hid]
      exact h.claims n hn s hold
    · exact hclaims
  | pass p replies taken sent effect =>
    obtain ⟨f, rfl, hf⟩ := effect
    have hplace : (nodes.map f).map (fun n => place n.id) = nodes.map fun n => place n.id := by
      rw [List.map_map]
      exact List.map_congr_left fun n hn => congrArg place (hf n hn).id
    refine ⟨⟨?_, ?_, ?_, ?_⟩, ?_⟩
    · rw [hplace]
      exact h.placed.apart
    · intro n' hn'
      obtain ⟨n, hn, rfl⟩ := List.mem_map.mp hn'
      rw [(hf n hn).id]
      exact h.placed.inside n hn
    · intro n' hn'
      obtain ⟨n, hn, rfl⟩ := List.mem_map.mp hn'
      rw [(hf n hn).id]
      exact h.placed.seeded n hn
    · intro n' hn'
      obtain ⟨n, hn, rfl⟩ := List.mem_map.mp hn'
      exact (hf n hn).ordered
    · intro n' hn' s hs
      obtain ⟨n, hn, rfl⟩ := List.mem_map.mp hn'
      rw [(hf n hn).id]
      rcases ((hf n hn).covers s).mp hs with hold | ⟨m, ranges, hm, hid, hcovers⟩
      · exact h.claims n hn s hold
      · rw [← hid]
        exact (request_claims heven h.placed p (p.mem_sent (sent _ hm)) hcovers).2

theorem Faithful.reproduces (htarget : isRestoreTarget cluster = true)
    (heven : EvenMap man cluster.spec.shards.toInt) (h : Faithful man cluster place nodes) :
    Reproduces man cluster place nodes where
  exact p hmet n hn hpos hprimary ranges hranges s := by
    have hnodes := p.seen n hn
    obtain ⟨hlow, hhigh⟩ := h.placed.inside n hnodes
    have hclaims : Claims man (place n.id) s ↔ Covers ranges s := by
      unfold Claims
      simp [hprimary, hranges]
    rw [← hclaims, p.sent_nil, hmet]
    constructor
    · intro hs
      rcases hs with hs | ⟨m, gap, hm, hid, hs⟩
      · exact h.claims n hnodes s hs
      · rw [← hid]
        rw [← hmet] at hm
        exact (request_claims heven h.placed p hm hs).2
    · intro hs
      by_cases howned : Covers n.slots s
      · exact .inl howned
      · right
        have hshare := (claims_iff heven h.placed hnodes hprimary s).mp hs
        refine exists_request htarget ?_ (h.placed.ordered n hnodes) ?_ hpos hprimary hlow hhigh
          hshare howned
        · -- were all slots assigned, the slot would have an owner at the same position
          intro hfull
          obtain ⟨hslow, hshigh⟩ := hshare.bounds (by omega)
          obtain ⟨m, hm, hms⟩ := exists_owner h.placed p hfull hslow hshigh
          have hmnodes := p.seen m hm
          obtain rfl := h.placed.eq_of_claims heven hnodes hmnodes hs (h.claims m hmnodes s hms)
          exact howned hms
        · rw [p.state_nodes]
          exact hn
  apart p replies c hc ranges hranges s hs m hm hne hown := by
    obtain ⟨n, command⟩ := c
    subst hranges
    obtain ⟨hn, hclaims⟩ := request_claims heven h.placed p (p.mem_sent hc) hs
    have hother := h.claims m (p.seen m hm) s hown
    exact hne (congrArg NodeState.id
      (h.placed.eq_of_claims heven (p.seen m hm) (p.seen n hn) hother hclaims))

end Even

/-! ## No other map does -/

section Uneven

variable {man : Backup.Manifest} {cluster : PerconaValkeyCluster}

/-- An engine that has loaded an empty dump. -/
def emptyEngine : NodeState :=
  { id := "n", addr := clientAddr "h", role := .primary, knownNodes := 1 }

theorem emptyEngine_unassigned : (newClusterState [emptyEngine]).getUnassignedSlots ≠ [] := by
  decide +kernel

theorem positionOf_nodeAt (name podIP : Str) (hip : podIP ≠ []) {i : Int} (hlow : 0 ≤ i)
    (hhigh : i < 2 ^ 31) : positionOf (nodeAt name i 0 podIP) = some (podIP, ⟨i, 0⟩) := by
  obtain ⟨hshard, hnode⟩ := nodeLabels_get name i 0
  have hlabels : (nodeAt name i 0 podIP).labels = nodeLabels name i 0 := rfl
  have hshardLabel : (nodeAt name i 0 podIP).shardLabel = some i := by
    rw [ValkeyNode.shardLabel, hlabels, hshard, atoi_itoa hlow hhigh]
    rfl
  have hnodeLabel : (nodeAt name i 0 podIP).nodeLabel = some 0 := by
    rw [ValkeyNode.nodeLabel, hlabels, hnode, atoi_itoa (by decide) (by decide)]
    rfl
  have hpodIP : (nodeAt name i 0 podIP).status.podIP ≠ [] := hip
  unfold positionOf
  rw [if_neg hpodIP, hshardLabel, hnodeLabel]
  rfl

theorem positionFor_emptyEngine (name : Str) {i : Int} (hlow : 0 ≤ i) (hhigh : i < 2 ^ 31) :
    positionFor (positionsByIP [nodeAt name i 0 "h"]) emptyEngine = some ⟨i, 0⟩ := by
  have hip : trimSuffix emptyEngine.addr (':' :: itoa clientPort) = "h" := by
    decide +kernel
  unfold positionFor positionsByIP
  rw [hip, List.filterMap_cons_some (positionOf_nodeAt name _ (by decide) hlow hhigh)]
  exact AList.lookup_insert _

/-- The pass that scrapes that engine alone, at the position of a primary. -/
def lonePass (name : Str) {i : Int} (hlow : 0 ≤ i) (hhigh : i < 2 ^ 31) :
    ReformPass (fun _ => ⟨i, 0⟩) [emptyEngine] where
  scraped := [emptyEngine]
  vnodes := [nodeAt name i 0 "h"]
  S := .insertion
  byAddr := .insertion
  introduced _ := false
  seen _ hn := hn
  truthful n hn pos hpos := by
    rw [List.mem_singleton.mp hn, positionFor_emptyEngine name hlow hhigh] at hpos
    exact (Option.some.inj hpos).symm

/-- Its primary is asked to take its whole share, whatever the manifest says. -/
theorem evenMap_of_reproduces (htarget : isRestoreTarget cluster = true)
    (h : ∀ place nodes, Relation.ReflTransGen (ReformStep man cluster place) [] nodes →
      Reproduces man cluster place nodes) : EvenMap man cluster.spec.shards.toInt := by
  intro i hlow hhigh ranges hranges s
  have hi : i < 2 ^ 31 := by
    have := cluster.spec.shards.toInt_lt
    omega
  let p := lonePass cluster.name hlow hi
  have hrun : Relation.ReflTransGen (ReformStep man cluster fun _ => ⟨i, 0⟩) [] [emptyEngine] := by
    refine .single (.load ⟨List.nodup_singleton _, fun _ _ => ⟨hlow, hhigh⟩,
      fun _ _ _ => ⟨ranges, hranges⟩, ?_⟩ ?_)
    · intro n hn
      rw [List.mem_singleton.mp hn]
      exact fun r hr => nomatch hr
    · intro n hn s hs
      rw [List.mem_singleton.mp hn] at hs
      obtain ⟨r, hr, -⟩ := hs
      cases hr
  have hpos := positionFor_emptyEngine cluster.name hlow hi
  have hempty : ∀ s, ¬ Covers emptyEngine.slots s := fun s ⟨r, hr, _⟩ => nomatch hr
  have hordered : ∀ n ∈ p.state.nodes, Ordered n.slots := by
    rw [p.state_nodes]
    intro n hn
    rw [List.mem_singleton.mp hn]
    exact fun r hr => nomatch hr
  have hscraped : emptyEngine ∈ p.state.nodes := by
    rw [p.state_nodes]
    exact List.mem_singleton_self _
  have hexact := (h _ _ hrun).exact p rfl emptyEngine (List.mem_singleton_self _) hpos rfl ranges
    hranges s
  rw [p.sent_nil] at hexact
  rw [← hexact]
  constructor
  · intro hs
    rcases hs with hs | ⟨n, gap, hn, -, hs⟩
    · exact absurd hs (hempty s)
    · obtain ⟨hn, -, pos, hpos', -, hshare⟩ := request_inShare hordered hn hs
      rw [p.state_nodes] at hn
      rw [p.truthful n hn pos hpos'] at hshare
      exact hshare
  · intro hs
    right
    have hfree : p.state.getUnassignedSlots ≠ [] := emptyEngine_unassigned
    exact exists_request htarget hfree (hordered _ hscraped) hscraped hpos rfl hlow hhigh hs
      (hempty s)

end Uneven

/-- Whatever an engine claims when it loads its dump, whichever engines a pass reaches
and whatever fails, re-forming gives every primary exactly the slots that the manifest
records for its shard, and asks for none that another scraped engine owns, if and only
if the manifest's slot map is the even split in the order of the shard indices. -/
theorem reform_reproduces_iff (man : Backup.Manifest) {cluster : PerconaValkeyCluster}
    (htarget : isRestoreTarget cluster = true) :
    (∀ place nodes, Relation.ReflTransGen (ReformStep man cluster place) [] nodes →
      Reproduces man cluster place nodes) ↔ EvenMap man cluster.spec.shards.toInt := by
  refine ⟨evenMap_of_reproduces htarget, fun heven place nodes hrun => ?_⟩
  have hfaithful : Faithful man cluster place nodes := by
    induction hrun with
    | refl =>
      refine ⟨⟨List.nodup_nil, ?_, ?_, ?_⟩, ?_⟩ <;> exact fun n hn => nomatch hn
    | tail _ hstep ih => exact ih.step heven hstep
  exact hfaithful.reproduces htarget heven

/-! ## A source whose addresses changed -/

/-- The manifest of a backup of these primaries. -/
def manifestOf (primaries : List Backup.ShardPrimary) : Backup.Manifest where
  cluster := "src"
  backupName := "b1"
  mode := []
  crVersion := []
  engineVersion := []
  createdAt := []
  consistency := []
  slotCoverage := "complete"
  shards := primaries.map fun sp => Backup.fragment hexChecksum sp []

/-- Two primaries that own half of the slots each, in the order of their addresses. -/
def halves (first second : SlotRange) : List Backup.ShardPrimary :=
  [⟨0, "a1", "10.0.0.1:6379", [first], 0⟩, ⟨1, "b2", "10.0.0.2:6379", [second], 0⟩]

def lowFirst : Backup.Manifest := manifestOf (halves ⟨0, 8191⟩ ⟨8192, 16383⟩)

def highFirst : Backup.Manifest := manifestOf (halves ⟨8192, 16383⟩ ⟨0, 8191⟩)

def twoShardTarget : PerconaValkeyCluster :=
  { targetCluster with spec := { targetCluster.spec with shards := 2 } }

/-- Where the addresses rank the shards in the order of their slots, the map comes back. -/
theorem reform_reproduces_lowFirst :
    isRestoreTarget twoShardTarget = true ∧
      ∀ place nodes, Relation.ReflTransGen (ReformStep lowFirst twoShardTarget place) [] nodes →
        Reproduces lowFirst twoShardTarget place nodes := by
  have htarget : isRestoreTarget twoShardTarget = true := by decide
  refine ⟨htarget, (reform_reproduces_iff _ htarget).mpr fun i hlow hhigh ranges hranges s => ?_⟩
  have hshards : twoShardTarget.spec.shards.toInt = 2 := rfl
  rw [hshards] at hhigh ⊢
  have hcases : i = 0 ∨ i = 1 := by omega
  unfold InShare
  rcases hcases with rfl | rfl
  · have hrecorded : recorded lowFirst 0 = some [⟨0, 8191⟩] := by decide +kernel
    have hstart : shareStart 16384 (Int.toNat 2) (Int.toNat 0) = 0 := by decide
    have hnext : shareStart 16384 (Int.toNat 2) (Int.toNat 0 + 1) = 8192 := by decide
    rw [hrecorded, Option.some.injEq] at hranges
    rw [← hranges, covers_singleton, hstart, hnext]
    dsimp only
    omega
  · have hrecorded : recorded lowFirst 1 = some [⟨8192, 16383⟩] := by decide +kernel
    have hstart : shareStart 16384 (Int.toNat 2) (Int.toNat 1) = 8192 := by decide
    have hnext : shareStart 16384 (Int.toNat 2) (Int.toNat 1 + 1) = 16384 := by decide
    rw [hrecorded, Option.some.injEq] at hranges
    rw [← hranges, covers_singleton, hstart, hnext]
    dsimp only
    omega

/-- The node table of a source whose upper half has moved to the lower address. -/
def movedTable : Str :=
  "b2 10.0.0.2:6379@16379 master - 0 0 1 connected 0-8191\n" ++
  "a1 10.0.0.1:6379@16379 master - 0 0 2 connected 8192-16383\n"

/-- The primaries of the restored cluster, each with one key of its dump. -/
def seededEngines : List NodeState :=
  [{ id := "p0", shardID := "s0", addr := "10.1.0.1:6379", role := .primary
     knownNodes := 2, slots := [⟨8192, 8192⟩] },
   { id := "p1", shardID := "s1", addr := "10.1.0.2:6379", role := .primary
     knownNodes := 2, slots := [⟨5, 5⟩] }]

def seededPlace (id : Str) : NodePosition := if id = "p0" then ⟨0, 0⟩ else ⟨1, 0⟩

def seededPass : ReformPass seededPlace seededEngines where
  scraped := seededEngines
  vnodes := [nodeAt "prod" 0 0 "10.1.0.1", nodeAt "prod" 1 0 "10.1.0.2"]
  S := .insertion
  byAddr := .insertion
  introduced _ := true
  seen _ hn := hn
  truthful n hn pos hpos := by
    rcases List.mem_pair.mp hn with rfl | rfl <;> exact (Option.some.inj hpos).symm

theorem seededEngines_run : Relation.ReflTransGen
    (ReformStep highFirst twoShardTarget seededPlace) [] seededEngines := by
  have hupper : recorded highFirst 0 = some [⟨8192, 16383⟩] := by decide +kernel
  have hlower : recorded highFirst 1 = some [⟨0, 8191⟩] := by decide +kernel
  refine .single (.load ⟨by decide, by decide +kernel, ?_, by decide⟩ ?_)
  · intro n hn _
    rcases List.mem_pair.mp hn with rfl | rfl
    · exact ⟨_, hupper⟩
    · exact ⟨_, hlower⟩
  · intro n hn s hs
    rcases List.mem_pair.mp hn with rfl | rfl
    · refine .inr ⟨rfl, _, hupper, ?_⟩
      rw [covers_singleton] at hs ⊢
      dsimp only at hs ⊢
      omega
    · refine .inr ⟨rfl, _, hlower, ?_⟩
      rw [covers_singleton] at hs ⊢
      dsimp only at hs ⊢
      omega

theorem highFirst_accepted : ∃ v, validateCompat pendingWorld.restore none highFirst = .ok v := by
  have hparsed : highFirst.shards.mapM shardRanges = .ok [[⟨8192, 16383⟩], [⟨0, 8191⟩]] := by
    decide +kernel
  refine validateCompat_of_exact _ hparsed ⟨by decide, by decide, fun s => ?_⟩ (by decide) rfl
  rw [List.flatten_cons, List.flatten_cons, List.flatten_nil, List.append_nil,
    List.singleton_append, covers_cons, covers_singleton]
  unfold maxSlot totalSlots
  dsimp only
  omega

/-- The restore of that source is accepted, its primary with the dump of the upper half
is asked to take the lower one, and with it a slot the other primary has claimed. -/
theorem reform_swaps_shards :
    Backup.shardPrimariesFromClusterNodes .insertion movedTable =
      .ok (halves ⟨8192, 16383⟩ ⟨0, 8191⟩) ∧
    (∃ v, validateCompat pendingWorld.restore none highFirst = .ok v) ∧
    Relation.ReflTransGen (ReformStep highFirst twoShardTarget seededPlace) [] seededEngines ∧
    recorded highFirst 0 = some [⟨8192, 16383⟩] ∧
    ∃ c ∈ seededPass.sent twoShardTarget [], seededPlace c.1.id = ⟨0, 0⟩ ∧
      c.2 = .addSlotsRange [⟨0, 8191⟩] ∧
      ∃ m ∈ seededPass.scraped, m.id ≠ c.1.id ∧ Covers m.slots 5 := by
  refine ⟨?_, highFirst_accepted, seededEngines_run, ?_⟩ <;> decide +kernel

end ValkeyOperator.Restore

import ValkeyOperator.Backup.Sealing
import ValkeyOperator.Restore.Phases

/-! The gate a backup passes before its restore provisions anything
(`perconavalkeyrestore/validate.go` and `slots.go`).

The slot ranges of every shard are parsed and marked slot by slot; unless the user
accepts a partial set, only a manifest whose shards cover every slot exactly once
gets through. -/

namespace ValkeyOperator.Restore
open Text Valkey Api

variable {man : Backup.Manifest} {c : Coverage} {v : CoverageVerdict} {slots : List Int}
  {ranges : List SlotRange} {template : Option ClusterSpec}

def annAllowPartial : Str := "valkey.percona.com/allow-partial-restore"

/-! ## Slot ranges of a manifest -/

def checkBounds (tok : Str) (start stop : Int) : Except Err SlotRange :=
  if start < 0 ∨ stop ≥ totalSlots ∨ start > stop then
    .error ⟨"slot range " ++ quote tok ++ " is out of bounds (want 0.." ++
      itoa (totalSlots - 1) ++ ", start<=end)", false⟩
  else .ok ⟨start, stop⟩

/-- One word, `5` or `0-5460`. -/
def parseOneRange (tok : Str) : Except Err SlotRange :=
  let parts := cut '-' tok
  match atoi (trimSpace parts.1) with
  | .error e => .error ⟨"invalid slot " ++ quote tok ++ ": " ++ e, false⟩
  | .ok start =>
    match parts.2 with
    | none => checkBounds tok start start
    | some hi =>
      match atoi (trimSpace hi) with
      | .error e => .error ⟨"invalid slot range " ++ quote tok ++ ": " ++ e, false⟩
      | .ok stop => checkBounds tok start stop

/-- The words of the field; blank ones are skipped, a bad one fails the lot. -/
def parseTokens : List Str → Except Err (List SlotRange)
  | [] => .ok []
  | tok :: rest =>
    if trimSpace tok = [] then parseTokens rest
    else
      match parseOneRange (trimSpace tok) with
      | .error e => .error e
      | .ok r => (parseTokens rest).map (r :: ·)

def parseManifestSlotRanges (s : Str) : Except Err (List SlotRange) :=
  if trimSpace s = [] then .ok [] else parseTokens (List.splitOn ',' (trimSpace s))

/-! ## Coverage -/

structure CoverageVerdict where
  covered : Int
  complete : Bool
  overlap : Bool
  detail : Str
deriving DecidableEq

/-- The slots seen so far, how many, and whether one was seen twice. -/
structure Coverage where
  seen : List Int := []
  covered : Int := 0
  overlap : Bool := false

def Coverage.mark (c : Coverage) (slot : Int) : Coverage :=
  if slot ∈ c.seen then { c with overlap := true }
  else { c with seen := slot :: c.seen, covered := c.covered + 1 }

def Coverage.markRange (c : Coverage) (r : SlotRange) : Except Err Coverage :=
  if r.start < 0 ∨ r.stop ≥ totalSlots ∨ r.start > r.stop then
    .error ⟨"slot range " ++ r.toStr ++ " out of bounds", false⟩
  else .ok (r.slots.foldl Coverage.mark c)

def Coverage.complete (c : Coverage) : Bool := decide (c.covered = totalSlots) && !c.overlap

def Coverage.detail (c : Coverage) : Str :=
  let outOf := itoa c.covered ++ '/' :: itoa totalSlots
  if c.overlap then
    "slot overlap detected (" ++ outOf ++ " slots, shards claim duplicate slots)"
  else if c.complete then "all " ++ itoa totalSlots ++ " slots covered"
  else "incomplete slot coverage: " ++ outOf ++ " slots (gap)"

def validateManifestCoverage (ranges : List (List SlotRange)) : Except Err CoverageVerdict :=
  (ranges.flatten.foldlM Coverage.markRange {}).map fun c =>
    { covered := c.covered, complete := c.complete, overlap := c.overlap, detail := c.detail }

/-! ## The gate -/

def truthy (v : Str) : Bool := v = "true" ∨ v = "1"

def allowPartial (rst : PerconaValkeyRestore) : Bool := truthy (rst.annotations.get annAllowPartial)

/-- The shard count the template asks for, if it does. -/
def templateShards (template : Option ClusterSpec) : Option Int :=
  match template with
  | none => none
  | some spec => if spec.shards = 0 then none else some spec.shards.toInt

def validateShardCount (template : Option ClusterSpec) (man : Backup.Manifest) : Except Err Unit :=
  match templateShards template with
  | none => .ok ()
  | some want =>
    if want ≠ man.shards.length then
      .error ⟨"clusterTemplate shards=" ++ itoa want ++
        " does not match manifest shard count=" ++ itoa man.shards.length, false⟩
    else .ok ()

/-- The ranges of one shard of the manifest. -/
def shardRanges (sh : Backup.ShardManifest) : Except Err (List SlotRange) :=
  (parseManifestSlotRanges sh.slotRanges).mapError (Err.wrap
    ("shard " ++ itoa sh.index ++ " slot ranges " ++ quote sh.slotRanges))

def coveragePartial : Str := "partial"

/-- Either the recomputed coverage or the manifest itself calls the set partial. -/
def isPartial (verdict : CoverageVerdict) (man : Backup.Manifest) : Bool :=
  verdict.overlap || !verdict.complete ||
    decide (man.slotCoverage.map Char.toLower = coveragePartial)

def validateCompat (rst : PerconaValkeyRestore) (template : Option ClusterSpec)
    (man : Backup.Manifest) : Except Err CoverageVerdict :=
  if man.shards = [] then
    .error ⟨"manifest records no shards — nothing to restore", false⟩
  else
    match man.shards.mapM shardRanges with
    | .error e => .error e
    | .ok perShard =>
      match validateManifestCoverage perShard with
      | .error e => .error e
      | .ok verdict =>
        if isPartial verdict man && !allowPartial rst then
          .error ⟨"source backup has partial slot coverage (" ++ verdict.detail ++
            ") — set annotation " ++ annAllowPartial ++
            "=true to restore a degraded set", false⟩
        else (validateShardCount template man).map fun _ => verdict

/-! ## What marking sees -/

/-- The marks of a list of slots. -/
structure Coverage.Marks (c : Coverage) (slots : List Int) : Prop where
  seen : ∀ s, s ∈ c.seen ↔ s ∈ slots
  nodup : c.seen.Nodup
  covered : c.covered = c.seen.length
  overlap : c.overlap = false ↔ slots.Nodup

namespace Coverage.Marks

theorem start : ({} : Coverage).Marks [] :=
  ⟨fun _ => Iff.rfl, List.nodup_nil, rfl, by simp⟩

theorem mark (h : c.Marks slots) (slot : Int) : (c.mark slot).Marks (slots ++ [slot]) := by
  have hnodup : (slots ++ [slot]).Nodup ↔ slots.Nodup ∧ slot ∉ slots := by
    rw [List.nodup_append]
    simp only [List.nodup_singleton, List.mem_singleton, true_and, and_congr_right_iff]
    exact fun _ => ⟨fun hne hslot => hne slot hslot slot rfl rfl,
      fun hslot a ha b hb hab => hslot (hb ▸ hab ▸ ha)⟩
  unfold Coverage.mark
  split
  · rename_i hseen
    have hslot := (h.seen slot).mp hseen
    refine ⟨fun s => ?_, h.nodup, h.covered, ?_⟩
    · rw [List.mem_append, List.mem_singleton, h.seen]
      exact ⟨.inl, fun hs => hs.elim id fun heq => heq ▸ hslot⟩
    · rw [hnodup]
      simp [hslot]
  · rename_i hseen
    have hslot : slot ∉ slots := fun hs => hseen ((h.seen slot).mpr hs)
    refine ⟨fun s => ?_, List.nodup_cons.mpr ⟨hseen, h.nodup⟩, ?_, ?_⟩
    · rw [List.mem_cons, List.mem_append, List.mem_singleton, h.seen, or_comm]
    · dsimp only
      rw [h.covered, List.length_cons, Int.natCast_add]
      rfl
    · rw [hnodup, h.overlap]
      simp [hslot]

theorem foldl (h : c.Marks slots) (more : List Int) :
    (more.foldl Coverage.mark c).Marks (slots ++ more) := by
  induction more generalizing c slots with
  | nil =>
    rw [List.append_nil]
    exact h
  | cons slot more ih =>
    rw [List.append_cons]
    exact ih (h.mark slot)

/-- All slots are seen once, if those marked are slots at all. -/
theorem complete_iff (h : c.Marks slots) (hbounds : ∀ s ∈ slots, 0 ≤ s ∧ s ≤ maxSlot) :
    c.complete = true ↔ slots.Nodup ∧ ∀ s, 0 ≤ s → s ≤ maxSlot → s ∈ slots := by
  let all := SlotRange.slots ⟨0, maxSlot⟩
  have hsub : c.seen ⊆ all := fun s hs =>
    SlotRange.mem_slots.mpr (hbounds s ((h.seen s).mp hs))
  have hlength : all.length = 16384 := SlotRange.length_slots _
  have hcomplete : c.complete = true ↔ c.covered = totalSlots ∧ c.overlap = false := by
    simp [Coverage.complete]
  rw [hcomplete, h.overlap, h.covered]
  unfold totalSlots
  constructor
  · -- as many different slots as there are, so all of them
    intro ⟨hcovered, hnodup⟩
    have hperm : c.seen.Perm all :=
      (List.subperm_of_subset h.nodup hsub).perm_of_length_le (by omega)
    refine ⟨hnodup, fun s hlow hhigh => (h.seen s).mp (hperm.mem_iff.mpr ?_)⟩
    exact SlotRange.mem_slots.mpr ⟨hlow, hhigh⟩
  · intro ⟨hnodup, hcovers⟩
    have hsup : all ⊆ c.seen := by
      intro s hs
      obtain ⟨hlow, hhigh⟩ := SlotRange.mem_slots.mp hs
      exact (h.seen s).mpr (hcovers s hlow hhigh)
    have hle := (List.subperm_of_subset h.nodup hsub).length_le
    have hall : all.Nodup := (SlotRange.pairwise_slots _).imp ne_of_lt
    have hge := (List.subperm_of_subset hall hsup).length_le
    exact ⟨by omega, hnodup⟩

end Coverage.Marks

/-! ## What the gate lets through -/

/-- The range is one, of slots. -/
def InBounds (r : SlotRange) : Prop := 0 ≤ r.start ∧ r.stop < totalSlots ∧ r.start ≤ r.stop

theorem markRange_cases (c : Coverage) (r : SlotRange) :
    (InBounds r ∧ c.markRange r = .ok (r.slots.foldl Coverage.mark c)) ∨
      (¬ InBounds r ∧ ∃ e, c.markRange r = .error e) := by
  unfold Coverage.markRange InBounds
  split
  · exact .inr ⟨by omega, _, rfl⟩
  · exact .inl ⟨by omega, rfl⟩

theorem foldlM_markRange (hbounds : ∀ r ∈ ranges, InBounds r) (h : c.Marks slots) :
    ∃ c', ranges.foldlM Coverage.markRange c = .ok c' ∧ c'.Marks (slots ++ expand ranges) := by
  induction ranges generalizing c slots with
  | nil => exact ⟨c, rfl, by simpa [expand] using h⟩
  | cons r rest ih =>
    obtain ⟨hr, hrest⟩ := List.forall_mem_cons.mp hbounds
    rcases markRange_cases c r with ⟨-, hmark⟩ | ⟨hout, -⟩
    · obtain ⟨c', hc', hmarks⟩ := ih hrest (h.foldl r.slots)
      refine ⟨c', ?_, ?_⟩
      · rw [List.foldlM_cons, hmark]
        exact hc'
      · rw [expand_cons, ← List.append_assoc]
        exact hmarks
    · exact absurd hr hout

theorem inBounds_of_foldlM {c' : Coverage} (h : ranges.foldlM Coverage.markRange c = .ok c') :
    ∀ r ∈ ranges, InBounds r := by
  induction ranges generalizing c with
  | nil => exact fun r hr => nomatch hr
  | cons r rest ih =>
    rw [List.foldlM_cons] at h
    rcases markRange_cases c r with ⟨hr, hmark⟩ | ⟨-, e, hmark⟩
    · rw [hmark] at h
      exact List.forall_mem_cons.mpr ⟨hr, ih h⟩
    · rw [hmark] at h
      cases h

theorem exactCover_iff_expand (hbounds : ∀ r ∈ ranges, InBounds r) :
    Backup.ExactCover ranges ↔
      (expand ranges).Nodup ∧ ∀ s, 0 ≤ s → s ≤ maxSlot → s ∈ expand ranges := by
  have hordered : Ordered ranges := fun r hr => (hbounds r hr).2.2
  have hnodup : (expand ranges).Nodup ↔
      ranges.Pairwise fun r r' => r.stop < r'.start ∨ r'.stop < r.start := by
    unfold expand
    rw [List.nodup_flatMap]
    have hslots : ∀ r ∈ ranges, r.slots.Nodup := fun r _ =>
      r.pairwise_slots.imp fun hlt => ne_of_lt hlt
    rw [and_iff_right hslots]
    refine List.Pairwise.iff_of_mem fun {a b} ha hb => ⟨fun hdisjoint => ?_, fun hapart s hsa hsb => ?_⟩
    · by_contra hmeet
      rw [not_or] at hmeet
      have hab := hordered a ha
      have hbb := hordered b hb
      exact hdisjoint (SlotRange.mem_slots.mpr (show a.start ≤ max a.start b.start ∧ _ by omega))
        (SlotRange.mem_slots.mpr (by omega))
    · rw [SlotRange.mem_slots] at hsa hsb
      omega
  rw [hnodup]
  constructor
  · exact fun h => ⟨h.disjoint, fun s hlow hhigh => mem_expand.mpr ((h.covers s).mpr ⟨hlow, hhigh⟩)⟩
  · intro ⟨hdisjoint, hcovers⟩
    refine ⟨hordered, hdisjoint, fun s => ⟨fun ⟨r, hr, hin⟩ => ?_, fun hs => ?_⟩⟩
    · have := hbounds r hr
      unfold InBounds maxSlot at *
      omega
    · exact mem_expand.mp (hcovers s hs.1 hs.2)

theorem validateManifestCoverage_ok {ranges : List (List SlotRange)}
    (h : validateManifestCoverage ranges = .ok v) :
    ∃ c : Coverage, c.Marks (expand ranges.flatten) ∧ (∀ r ∈ ranges.flatten, InBounds r) ∧
      v = ⟨c.covered, c.complete, c.overlap, c.detail⟩ := by
  unfold validateManifestCoverage at h
  cases hmarked : ranges.flatten.foldlM Coverage.markRange {} with
  | error e =>
    rw [hmarked] at h
    cases h
  | ok c =>
    rw [hmarked] at h
    have hbounds := inBounds_of_foldlM hmarked
    obtain ⟨c', hc', hmarks⟩ := foldlM_markRange hbounds .start
    rw [hmarked, Except.ok.injEq] at hc'
    subst hc'
    exact ⟨c, hmarks, hbounds, (Except.ok.inj h).symm⟩

/-- Coverage is complete exactly when every slot is recorded once. -/
theorem validateManifestCoverage_complete_iff {ranges : List (List SlotRange)}
    (h : validateManifestCoverage ranges = .ok v) :
    v.complete = true ↔ Backup.ExactCover ranges.flatten := by
  obtain ⟨c, hmarks, hbounds, rfl⟩ := validateManifestCoverage_ok h
  rw [exactCover_iff_expand hbounds]
  refine hmarks.complete_iff fun s hs => ?_
  obtain ⟨r, hr, hin⟩ := mem_expand.mp hs
  have := hbounds r hr
  unfold InBounds maxSlot at *
  omega

/-- What the gate has checked when it lets a manifest through. -/
structure Accepted (rst : PerconaValkeyRestore) (template : Option ClusterSpec)
    (man : Backup.Manifest) (perShard : List (List SlotRange)) (v : CoverageVerdict) : Prop where
  shards : man.shards ≠ []
  parsed : man.shards.mapM shardRanges = .ok perShard
  coverage : validateManifestCoverage perShard = .ok v
  consent : isPartial v man = true → allowPartial rst = true
  count : validateShardCount template man = .ok ()

theorem validateCompat_ok_iff {rst : PerconaValkeyRestore} :
    validateCompat rst template man = .ok v ↔ ∃ perShard, Accepted rst template man perShard v := by
  unfold validateCompat
  constructor
  · intro h
    split at h
    · cases h
    · rename_i hshards
      split at h
      · cases h
      · rename_i perShard hparsed
        split at h
        · cases h
        · rename_i verdict hverdict
          split at h
          · cases h
          · rename_i hconsent
            cases hcount : validateShardCount template man with
            | error e =>
              rw [hcount] at h
              cases h
            | ok _ =>
              rw [hcount] at h
              cases h
              refine ⟨perShard, hshards, hparsed, hverdict, fun hpart => ?_, hcount⟩
              simpa [hpart] using hconsent
  · intro ⟨perShard, h⟩
    rw [if_neg h.shards, h.parsed]
    dsimp only
    rw [h.coverage]
    dsimp only
    rw [if_neg, h.count]
    · rfl
    · rw [Bool.and_eq_true]
      intro ⟨hpart, hrefused⟩
      rw [h.consent hpart] at hrefused
      cases hrefused

/-- Without the user's consent to a partial set only exact covers get through. -/
theorem Accepted.exact {rst : PerconaValkeyRestore} {perShard : List (List SlotRange)}
    (h : Accepted rst template man perShard v) (hrefused : allowPartial rst = false) :
    Backup.ExactCover perShard.flatten := by
  refine (validateManifestCoverage_complete_iff h.coverage).mp ?_
  by_contra hincomplete
  have hpart : isPartial v man = true := by
    simp [isPartial, Bool.eq_false_iff.mpr hincomplete]
  rw [h.consent hpart] at hrefused
  cases hrefused

/-- Shards that cover every slot once pass the gate, unless the manifest calls itself
partial or the template asks for another number of shards. -/
theorem validateCompat_of_exact (rst : PerconaValkeyRestore) {perShard : List (List SlotRange)}
    (hparsed : man.shards.mapM shardRanges = .ok perShard)
    (hexact : Backup.ExactCover perShard.flatten)
    (hlabel : man.slotCoverage.map Char.toLower ≠ coveragePartial)
    (hcount : validateShardCount template man = .ok ()) :
    ∃ v, validateCompat rst template man = .ok v := by
  have hbounds : ∀ r ∈ perShard.flatten, InBounds r := by
    intro r hr
    have hle := hexact.ordered r hr
    have hstart := (hexact.covers r.start).mp ⟨r, hr, le_rfl, hle⟩
    have hstop := (hexact.covers r.stop).mp ⟨r, hr, hle, le_rfl⟩
    unfold InBounds maxSlot at *
    omega
  obtain ⟨c, hmarked, -⟩ := foldlM_markRange hbounds .start
  have hverdict : validateManifestCoverage perShard =
      .ok ⟨c.covered, c.complete, c.overlap, c.detail⟩ := by
    unfold validateManifestCoverage
    rw [hmarked]
    rfl
  have hcomplete : c.complete = true := (validateManifestCoverage_complete_iff hverdict).mpr hexact
  have hoverlap : c.overlap = false := by
    simp only [Coverage.complete, Bool.and_eq_true, Bool.not_eq_true'] at hcomplete
    exact hcomplete.2
  refine ⟨_, validateCompat_ok_iff.mpr ⟨perShard, ?_, hparsed, hverdict, ?_, hcount⟩⟩
  · -- without shards no slot would be covered
    intro hnone
    rw [hnone] at hparsed
    cases hparsed
    obtain ⟨r, hr, -⟩ := (hexact.covers 0).mpr (by decide)
    cases hr
  · intro hpart
    simp [isPartial, hcomplete, hoverlap, hlabel] at hpart

end ValkeyOperator.Restore

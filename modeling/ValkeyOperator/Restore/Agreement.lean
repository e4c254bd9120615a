import ValkeyOperator.Restore.Compat

/-! What a backup records and what a restore makes of it.

The Job writes the slot ranges of each shard as a text and checks them as a sorted chain; the
restore reads the texts back and marks slot by slot. Both come to the same verdict. -/

namespace ValkeyOperator.Restore
open Text Valkey

/-! ## Ranges written and read -/

section Ranges
variable {r : SlotRange} {ranges : List SlotRange}

theorem chars_toStr (h : InBounds r) : ∀ c ∈ r.toStr, c.isDigit = true ∨ c = '-' := by
  intro c hc
  have hstop : 0 ≤ r.stop := h.1.trans h.2.2
  unfold SlotRange.toStr at hc
  split at hc
  · exact .inl (isDigit_of_mem_itoa h.1 hc)
  · rcases List.mem_append.mp hc with hc | hc
    · exact .inl (isDigit_of_mem_itoa h.1 hc)
    · rcases List.mem_cons.mp hc with rfl | hc
      · exact .inr rfl
      · exact .inl (isDigit_of_mem_itoa hstop hc)

theorem toStr_ne_nil (r : SlotRange) : r.toStr ≠ [] := by
  unfold SlotRange.toStr
  split
  · exact itoa_ne_nil _
  · simp

theorem trimSpace_toStr (h : InBounds r) : trimSpace r.toStr = r.toStr := by
  refine trimSpace_eq_self fun c hc => ?_
  rcases chars_toStr h c hc with hdigit | rfl
  · exact isSpace_of_isDigit hdigit
  · decide

theorem comma_not_mem_toStr (h : InBounds r) : ',' ∉ r.toStr := by
  intro hc
  rcases chars_toStr h ',' hc with hdigit | hdash
  · exact absurd hdigit (by decide)
  · exact absurd hdash (by decide)

theorem parseOneRange_toStr (h : InBounds r) : parseOneRange r.toStr = .ok r := by
  obtain ⟨hstart, hstop, hle⟩ := h
  have hnumber : ∀ n : Int, 0 ≤ n → n < totalSlots → atoi (trimSpace (itoa n)) = .ok n := by
    intro n hn hmax
    rw [trimSpace_eq_self fun c hc => isSpace_of_isDigit (isDigit_of_mem_itoa hn hc)]
    exact atoi_itoa hn (hmax.trans (by decide))
  have hdash : '-' ∉ itoa r.start := fun hc => absurd (isDigit_of_mem_itoa hstart hc) (by decide)
  have hbounds : ∀ tok, checkBounds tok r.start r.stop = .ok r := fun tok => by
    rw [checkBounds, if_neg (by omega)]
  unfold parseOneRange
  by_cases heq : r.start = r.stop
  · rw [SlotRange.toStr, if_pos heq, cut_of_not_mem hdash]
    dsimp only
    rw [hnumber r.start hstart (by omega)]
    dsimp only
    rw [← hbounds (itoa r.start), heq]
  · rw [SlotRange.toStr, if_neg heq, cut_append hdash]
    dsimp only
    rw [hnumber r.start hstart (by omega)]
    dsimp only
    rw [hnumber r.stop (by omega) hstop]
    exact hbounds _

theorem parseTokens_map_toStr (h : ∀ r ∈ ranges, InBounds r) :
    parseTokens (ranges.map SlotRange.toStr) = .ok ranges := by
  induction ranges with
  | nil => rfl
  | cons r rest ih =>
    obtain ⟨hr, hrest⟩ := List.forall_mem_cons.mp h
    rw [List.map_cons, parseTokens, trimSpace_toStr hr, if_neg (toStr_ne_nil r),
      parseOneRange_toStr hr]
    dsimp only
    rw [ih hrest]
    rfl

theorem chars_join {sep : Str} {parts : List Str} {c : Char} (h : c ∈ join sep parts) :
    c ∈ sep ∨ ∃ part ∈ parts, c ∈ part := by
  induction parts with
  | nil => cases h
  | cons part rest ih =>
    cases rest with
    | nil => exact .inr ⟨part, by simp, by simpa [join] using h⟩
    | cons next rest =>
      have hcases : c ∈ part ∨ c ∈ sep ∨ c ∈ join sep (next :: rest) := by
        simpa [join, List.intercalate] using h
      rcases hcases with hpart | hsep | hrest
      · exact .inr ⟨part, by simp, hpart⟩
      · exact .inl hsep
      · rcases ih hrest with hsep | ⟨p, hp, hc⟩
        · exact .inl hsep
        · exact .inr ⟨p, List.mem_cons_of_mem _ hp, hc⟩

theorem trimSpace_format (h : ∀ r ∈ ranges, InBounds r) :
    trimSpace (formatSlotRanges ranges) = formatSlotRanges ranges := by
  refine trimSpace_eq_self fun c hc => ?_
  rcases chars_join hc with hsep | ⟨part, hpart, hc⟩
  · rw [List.mem_singleton.mp hsep]
    decide
  · obtain ⟨r, hr, rfl⟩ := List.mem_map.mp hpart
    rcases chars_toStr (h r hr) c hc with hdigit | rfl
    · exact isSpace_of_isDigit hdigit
    · decide

/-- The ranges of a shard read back as they were written. -/
theorem parseManifestSlotRanges_format (h : ∀ r ∈ ranges, InBounds r) :
    parseManifestSlotRanges (formatSlotRanges ranges) = .ok ranges := by
  unfold parseManifestSlotRanges
  rw [trimSpace_format h]
  cases ranges with
  | nil => rfl
  | cons r rest =>
    have hsplit : List.splitOn ',' (formatSlotRanges (r :: rest)) = (r :: rest).map SlotRange.toStr := by
      refine List.splitOn_intercalate ',' (fun part hpart => ?_) (by simp)
      obtain ⟨r', hr', rfl⟩ := List.mem_map.mp hpart
      exact comma_not_mem_toStr (h r' hr')
    have hne : formatSlotRanges (r :: rest) ≠ [] := by
      intro hnil
      rw [hnil] at hsplit
      -- an empty text has one word, which is empty
      have hhead : [] = r.toStr := (List.cons.inj hsplit).1
      exact toStr_ne_nil r hhead.symm
    rw [if_neg hne, hsplit, parseTokens_map_toStr h]

end Ranges

/-! ## One verdict -/

section Verdict
variable {shards : List (List SlotRange)} {man : Backup.Manifest}

theorem shardRanges_format (h : ∀ ranges ∈ shards, ∀ r ∈ ranges, InBounds r)
    (hman : man.shards.map (·.slotRanges) = shards.map formatSlotRanges) :
    man.shards.mapM shardRanges = .ok shards := by
  generalize man.shards = fragments at hman
  induction shards generalizing fragments with
  | nil =>
    rw [List.map_nil, List.map_eq_nil_iff] at hman
    rw [hman]
    rfl
  | cons ranges rest ih =>
    obtain ⟨hranges, hrest⟩ := List.forall_mem_cons.mp h
    cases fragments with
    | nil => cases hman
    | cons sh fragments =>
      obtain ⟨hsh, hfragments⟩ := List.cons.inj hman
      have hread : shardRanges sh = .ok ranges := by
        rw [shardRanges, show sh.slotRanges = _ from hsh, parseManifestSlotRanges_format hranges]
        rfl
      rw [List.mapM_cons, hread]
      dsimp only [bind, Except.bind]
      rw [ih hrest fragments hfragments]
      rfl

theorem validateManifestCoverage_of_inBounds (h : ∀ ranges ∈ shards, ∀ r ∈ ranges, InBounds r) :
    ∃ v, validateManifestCoverage shards = .ok v ∧ v.complete = (!v.overlap && v.complete) := by
  have hbounds : ∀ r ∈ shards.flatten, InBounds r := by
    intro r hr
    obtain ⟨ranges, hranges, hmem⟩ := List.mem_flatten.mp hr
    exact h ranges hranges r hmem
  obtain ⟨c, hmarked, -⟩ := foldlM_markRange hbounds .start
  refine ⟨⟨c.covered, c.complete, c.overlap, c.detail⟩, ?_, ?_⟩
  · rw [validateManifestCoverage, hmarked]
    rfl
  · cases hoverlap : c.overlap <;> simp [Coverage.complete, hoverlap]

/-- Whatever ranges the shards have, the restore reads back what the Job has written, and
finds the set complete exactly if the Job has. -/
theorem coverage_agrees (S : Sorter SlotRange) (h : ∀ ranges ∈ shards, ∀ r ∈ ranges, InBounds r)
    (hman : man.shards.map (·.slotRanges) = shards.map formatSlotRanges)
    (hverdict : man.slotCoverage = (Backup.assertCoverage S shards.flatten).toStr) :
    man.shards.mapM shardRanges = .ok shards ∧
    ∃ v, validateManifestCoverage shards = .ok v ∧
      (Backup.assertCoverage S shards.flatten = .complete ↔ v.complete = true) ∧
      (isPartial v man = false ↔ Backup.assertCoverage S shards.flatten = .complete) ∧
      (v.complete = true ↔ Backup.ExactCover shards.flatten) := by
  obtain ⟨v, hv, hoverlap⟩ := validateManifestCoverage_of_inBounds h
  have hexact := validateManifestCoverage_complete_iff hv
  have hagree : Backup.assertCoverage S shards.flatten = .complete ↔ v.complete = true :=
    (Backup.assertCoverage_eq_complete_iff S shards.flatten).trans hexact.symm
  refine ⟨shardRanges_format h hman, v, hv, hagree, ?_, hexact⟩
  unfold isPartial
  rw [hverdict]
  cases hjob : Backup.assertCoverage S shards.flatten with
  | complete =>
    have hcomplete := hagree.mp hjob
    have hno : v.overlap = false := by
      rw [hcomplete] at hoverlap
      simpa using hoverlap.symm
    have hlabel : Backup.CoverageVerdict.complete.toStr.map Char.toLower ≠ coveragePartial := by decide
    simp [hcomplete, hno, hlabel]
  | incomplete =>
    have hflag : Backup.CoverageVerdict.incomplete.toStr.map Char.toLower = coveragePartial := by
      decide
    simp [hflag]

end Verdict

/-- Two shards with half of the slots each, and one without any. -/
def splitHalves : List (List SlotRange) := [[⟨8192, 16383⟩], [], [⟨0, 0⟩, ⟨1, 8191⟩]]

def splitManifest : Backup.Manifest where
  cluster := ['c']
  backupName := ['b']
  mode := []
  crVersion := []
  engineVersion := []
  createdAt := []
  consistency := []
  slotCoverage := "complete"
  shards := splitHalves.map fun ranges =>
    { index := 0, primaryNodeID := [], slotRanges := formatSlotRanges ranges, rdbKey := []
      sizeBytes := 0, sha256 := [], masterReplOffset := 0 }

theorem coverage_agrees_halves :
    splitHalves.map formatSlotRanges = ["8192-16383".toList, [], "0,1-8191".toList] ∧
    (∀ ranges ∈ splitHalves, ∀ r ∈ ranges, InBounds r) ∧
    Backup.assertCoverage .insertion splitHalves.flatten = .complete ∧
    ∃ v, validateManifestCoverage splitHalves = .ok v ∧ v.complete = true ∧
      isPartial v splitManifest = false := by
  have hbounds : ∀ ranges ∈ splitHalves, ∀ r ∈ ranges, InBounds r := by
    unfold InBounds
    decide
  have hjob : Backup.assertCoverage .insertion splitHalves.flatten = .complete := by decide
  have hlabel : splitManifest.slotCoverage =
      (Backup.assertCoverage .insertion splitHalves.flatten).toStr := by rw [hjob]; decide
  obtain ⟨-, v, hv, hagree, hflag, -⟩ :=
    coverage_agrees .insertion hbounds (by simp [splitManifest]) hlabel
  exact ⟨by decide, hbounds, hjob, v, hv, hagree.mp hjob, hflag.mpr hjob⟩

end ValkeyOperator.Restore

import Mathlib.Data.Int.Order.Basic
import Mathlib.Logic.Relation

/-! The last slot up to now, found by asking for the next one again and again.

The loop has no bound of its own: it ends once the next slot lies in the future. Where a
slot is always found, it returns the greatest one up to now (`lastUpTo_eq`). A source that
answers with a fixed time when it knows of no further slot can send it round in circles;
`ends_iff` says when. -/

namespace ValkeyOperator.Elapsed

variable (next : Int → Int) (now : Int)

/-- Ask for the next slot until it is in the future: the last one before, or `last`. -/
def lastUpTo : Nat → Int → Int → Option Int
  | 0, _, _ => none
  | fuel + 1, last, anchor =>
    if now < next anchor then some last else lastUpTo fuel (next anchor) (next anchor)

/-- The loop comes to an end. -/
def Ends (anchor : Int) : Prop := ∃ fuel last, (lastUpTo next now fuel last anchor).isSome = true

/-- A slot that has elapsed, found from the time before. -/
def Found (t slot : Int) : Prop := slot = next t ∧ slot ≠ 0 ∧ slot ≤ now

/-- Some slot that has elapsed is the last one that is known. -/
def RunsDry (anchor : Int) : Prop :=
  ∃ t, Relation.ReflTransGen (Found next now) anchor t ∧ next t = 0

variable {next now} {anchor : Int}

theorem isSome_lastUpTo_last {fuel : Nat} {last last' : Int}
    (h : (lastUpTo next now fuel last anchor).isSome = true) :
    (lastUpTo next now fuel last' anchor).isSome = true := by
  cases fuel with
  | zero => cases h
  | succ fuel =>
    unfold lastUpTo at h ⊢
    split
    · rfl
    · rename_i hpast
      rwa [if_neg hpast] at h

theorem isSome_lastUpTo_mono {fuel fuel' : Nat} {last : Int} (hle : fuel ≤ fuel')
    (h : (lastUpTo next now fuel last anchor).isSome = true) :
    (lastUpTo next now fuel' last anchor).isSome = true := by
  induction fuel generalizing fuel' last anchor with
  | zero => cases h
  | succ fuel ih =>
    obtain ⟨fuel', rfl⟩ := Nat.exists_eq_add_of_lt (Nat.lt_of_succ_le hle)
    unfold lastUpTo at h ⊢
    split
    · rfl
    · rename_i hpast
      rw [if_neg hpast] at h
      exact ih (Nat.le_add_right _ _) h

/-- Searches that are each over with some fuel are over with the same one. -/
theorem exists_common_fuel {α : Type} {P : Nat → α → Prop}
    (hmono : ∀ x fuel fuel', fuel ≤ fuel' → P fuel x → P fuel' x) {xs : List α}
    (h : ∀ x ∈ xs, ∃ fuel, P fuel x) : ∃ fuel, ∀ x ∈ xs, P fuel x := by
  induction xs with
  | nil => exact ⟨0, by simp⟩
  | cons x rest ih =>
    obtain ⟨⟨fuel, hx⟩, hrest⟩ := List.forall_mem_cons.mp h
    obtain ⟨fuel', hrest⟩ := ih hrest
    refine ⟨max fuel fuel', List.forall_mem_cons.mpr ⟨hmono x _ _ (Nat.le_max_left _ _) hx, fun y hy => ?_⟩⟩
    exact hmono y _ _ (Nat.le_max_right _ _) (hrest y hy)

theorem ends_of_past (h : now < next anchor) : Ends next now anchor :=
  ⟨1, 0, by rw [lastUpTo, if_pos h]; rfl⟩

/-- A slot that has elapsed does not change whether the loop ends. -/
theorem ends_next_iff (h : next anchor ≤ now) :
    Ends next now anchor ↔ Ends next now (next anchor) := by
  constructor
  · rintro ⟨fuel, last, hends⟩
    cases fuel with
    | zero => cases hends
    | succ fuel =>
      rw [lastUpTo, if_neg (not_lt.mpr h)] at hends
      exact ⟨fuel, _, hends⟩
  · rintro ⟨fuel, last, hends⟩
    refine ⟨fuel + 1, last, ?_⟩
    rw [lastUpTo, if_neg (not_lt.mpr h)]
    exact isSome_lastUpTo_last hends

/-- The loop does not end where each slot has elapsed and comes with a next one of the
same kind. -/
theorem not_ends_of_invariant {P : Int → Prop} (hstep : ∀ t, P t → next t ≤ now ∧ P (next t))
    (h : P anchor) : ¬ Ends next now anchor := by
  rintro ⟨fuel, last, hends⟩
  induction fuel generalizing last anchor with
  | zero => cases hends
  | succ fuel ih =>
    obtain ⟨hpast, hnext⟩ := hstep anchor h
    rw [lastUpTo, if_neg (not_lt.mpr hpast)] at hends
    exact ih hnext _ hends

/-- What the loop has found is the last slot up to now, or there was none after the anchor. -/
theorem lastUpTo_eq_some {fuel : Nat} {last found : Int}
    (h : lastUpTo next now fuel last anchor = some found) :
    found = last ∧ now < next anchor ∨ next anchor ≤ now ∧ found ≤ now ∧ now < next found := by
  induction fuel generalizing last anchor with
  | zero => cases h
  | succ fuel ih =>
    unfold lastUpTo at h
    split at h
    · rename_i hpast
      exact .inl ⟨(Option.some.inj h).symm, hpast⟩
    · rename_i hpast
      have helapsed : next anchor ≤ now := not_lt.mp hpast
      rcases ih h with ⟨rfl, hfuture⟩ | ⟨-, hfound⟩
      · exact .inr ⟨helapsed, helapsed, hfuture⟩
      · exact .inr ⟨helapsed, hfound⟩

/-! ## A source that may know of no further slot -/

section Zero

/-- As long as further slots are known, they pass any time. -/
theorem ends_of_not_runsDry (hzero : ∀ t, next t = 0 ∨ t < next t) (h : ¬ RunsDry next now anchor) :
    Ends next now anchor := by
  -- the distance to now goes down
  induction hdistance : (now - anchor).toNat using Nat.strongRecOn generalizing anchor with
  | ind d ih =>
    have hknown : next anchor ≠ 0 := fun hnone => h ⟨anchor, .refl, hnone⟩
    have hlater : anchor < next anchor := (hzero anchor).resolve_left hknown
    by_cases hpast : now < next anchor
    · exact ends_of_past hpast
    · have helapsed : next anchor ≤ now := not_lt.mp hpast
      refine (ends_next_iff helapsed).mpr (ih _ (by omega) (fun hdry => h ?_) rfl)
      obtain ⟨t, hpath, hnone⟩ := hdry
      exact ⟨t, .head ⟨rfl, hknown, helapsed⟩ hpath, hnone⟩

theorem RunsDry.cases (h : RunsDry next now anchor) :
    next anchor = 0 ∨ Found next now anchor (next anchor) ∧ RunsDry next now (next anchor) := by
  obtain ⟨t, hpath, hnone⟩ := h
  rcases Relation.ReflTransGen.cases_head hpath with rfl | ⟨slot, hfound, hrest⟩
  · exact .inl hnone
  · obtain rfl := hfound.1
    exact .inr ⟨hfound, t, hrest, hnone⟩

/-- A source that runs dry sends the loop back to the zero time. -/
theorem RunsDry.ends_iff (hnow : 0 ≤ now) (h : RunsDry next now anchor) :
    Ends next now anchor ↔ Ends next now 0 := by
  obtain ⟨t, hpath, hnone⟩ := h
  induction hpath using Relation.ReflTransGen.head_induction_on with
  | refl => rw [ends_next_iff (hnone ▸ hnow), hnone]
  | head hfound _ ih =>
    obtain ⟨rfl, -, helapsed⟩ := hfound
    rw [ends_next_iff helapsed, ih]

/-- The loop ends exactly if the source does not run dry up to now, or not from the zero
time on; before the zero time it always ends. -/
theorem ends_iff (hzero : ∀ t, next t = 0 ∨ t < next t) :
    Ends next now anchor ↔ now < 0 ∨ ¬ RunsDry next now anchor ∨ ¬ RunsDry next now 0 := by
  by_cases hnow : now < 0
  · refine iff_of_true ?_ (.inl hnow)
    -- an answer without a slot lies in the future
    by_cases hdry : RunsDry next now anchor
    · obtain ⟨t, hpath, hnone⟩ := hdry
      induction hpath using Relation.ReflTransGen.head_induction_on with
      | refl => exact ends_of_past (hnone ▸ hnow)
      | head hfound _ ih =>
        obtain ⟨rfl, -, helapsed⟩ := hfound
        exact (ends_next_iff helapsed).mpr ih
    · exact ends_of_not_runsDry hzero hdry
  · have hnow' : 0 ≤ now := not_lt.mp hnow
    by_cases hdry : RunsDry next now anchor
    · rw [hdry.ends_iff hnow', or_iff_right hnow, or_iff_right (not_not.mpr hdry)]
      constructor
      · intro hends hdry0
        refine not_ends_of_invariant (P := RunsDry next now) (fun t ht => ?_) hdry0 hends
        rcases ht.cases with hnone | ⟨hfound, hrest⟩
        · rw [hnone]
          exact ⟨hnow', hdry0⟩
        · exact ⟨hfound.2.2, hrest⟩
      · exact ends_of_not_runsDry hzero
    · exact iff_of_true (ends_of_not_runsDry hzero hdry) (.inr (.inl hdry))

end Zero

/-! ## A source that always finds the first slot after a time -/

/-- `next` is the first slot strictly after its argument. -/
structure FirstAfter (slots : Int → Prop) (next : Int → Int) : Prop where
  slot : ∀ t, slots (next t)
  after : ∀ t, t < next t
  first : ∀ t s, slots s → t < s → next t ≤ s

/-- The latest slot up to now that is later than the anchor. -/
structure Latest (slots : Int → Prop) (anchor now slot : Int) : Prop where
  isSlot : slots slot
  after : anchor < slot
  upTo : slot ≤ now
  last : ∀ s, slots s → s ≤ now → s ≤ slot

variable {slots : Int → Prop}

/-- One unit of fuel for each unit of time is enough, and the loop returns `last` if no slot
has elapsed, and else the latest one. -/
theorem lastUpTo_eq (h : FirstAfter slots next) {fuel : Nat} (last : Int)
    (hfuel : (now - anchor).toNat < fuel) :
    ∃ found, lastUpTo next now fuel last anchor = some found ∧
      (found = last ∧ now < next anchor ∨ Latest slots anchor now found) := by
  induction fuel generalizing anchor last with
  | zero => omega
  | succ fuel ih =>
    unfold lastUpTo
    split
    · rename_i hpast
      exact ⟨last, rfl, .inl ⟨rfl, hpast⟩⟩
    · rename_i hpast
      have hafter := h.after anchor
      have hless : (now - next anchor).toNat < fuel := by omega
      obtain ⟨found, heq, hfound⟩ := ih (next anchor) hless
      refine ⟨found, heq, .inr ?_⟩
      rcases hfound with ⟨rfl, hfuture⟩ | hlatest
      · refine ⟨h.slot anchor, hafter, not_lt.mp hpast, fun s hs hup => ?_⟩
        by_contra hlater
        have := h.first (next anchor) s hs (not_le.mp hlater)
        omega
      · exact ⟨hlatest.isSlot, lt_trans hafter hlatest.after, hlatest.upTo, hlatest.last⟩

end ValkeyOperator.Elapsed

import Mathlib.Data.Prod.Lex
import ValkeyOperator.Cluster.SmartUpdate

/-! The contract version gate (`pkg/version/version.go` and `reconcileVersionGate`
of `perconavalkeycluster/controller.go`).

A cluster is reconciled only if its contract version is the operator's own minor
version or the one released before it, and not lower than the one it has been
verified with last. -/

namespace ValkeyOperator.Cluster
open Text Valkey

/-- The number `strconv.Atoi` returns beside its error: zero for what is not a
number, the nearest one for a number out of range. -/
def atoiValue (s : Str) : Int :=
  match signed? s with
  | none => 0
  | some n => max (-(2 ^ 63)) (min n (2 ^ 63 - 1))

def majorMinor (v : Str) : Int × Int :=
  match cut '.' (trimSpace v) with
  | (major, none) => (atoiValue major, 0)
  | (major, some rest) => (atoiValue major, atoiValue (cut '.' rest).1)

/-- Negative, zero or positive as `a` is below, at or above `b`. -/
def compareMajorMinor (a b : Str) : Int :=
  if (majorMinor a).1 ≠ (majorMinor b).1 then (wrap64 ((majorMinor a).1 - (majorMinor b).1)).sign
  else (wrap64 ((majorMinor a).2 - (majorMinor b).2)).sign

def versionText (major minor : Int) : Str := itoa major ++ '.' :: itoa minor

def lastMinorOfPriorMajor : Int := 2

/-- The operator's own minor version and the one released before it. -/
def acceptedCrVersions (opMajorMinor : Str) : List Str :=
  let (major, minor) := majorMinor opMajorMinor
  if minor > 0 then [versionText major (minor - 1), versionText major minor]
  else if major > 1 then [versionText (major - 1) lastMinorOfPriorMajor, versionText major minor]
  else [versionText major minor]

inductive VersionVerdict where
  | accepted
  /-- newer than the operator: Ready is taken away, nothing else is reported -/
  | unsupported (message : Str)
  /-- lower than before, or too old: reported as Degraded with the reason -/
  | refused (reason message : Str)
deriving DecidableEq

def operatorMajorMinor (operator : Str) : Str :=
  versionText (majorMinor operator).1 (majorMinor operator).2

/-- An empty contract version is stamped with the operator's own. -/
def stampCrVersion (operator crVersion : Str) : Str :=
  if crVersion = [] then operatorMajorMinor operator else crVersion

def reconcileVersionGate (operator crVersion lastObserved : Str) : VersionVerdict :=
  let accepted := acceptedCrVersions (operatorMajorMinor operator)
  if crVersion ≠ [] ∧ compareMajorMinor operator crVersion < 0 then
    .unsupported ("spec.crVersion " ++ crVersion ++ " is newer than operator " ++
      operatorMajorMinor operator)
  else if lastObserved ≠ [] ∧ compareMajorMinor crVersion lastObserved < 0 then
    .refused "CrVersionDowngradeRejected" ("refusing crVersion downgrade " ++
      crVersion ++ " -> " ++ lastObserved ++ " (crVersion is monotonic)")
  else if crVersion ∉ accepted then
    .refused "CrVersionTooOld" ("spec.crVersion " ++ crVersion ++
      " is more than one minor behind operator " ++ operatorMajorMinor operator ++
      " (accepted: " ++ join ", " accepted ++
      "); step crVersion up one minor at a time")
  else .accepted

/-! ## What the readings of a version are -/

/-- A text without dots and white space, as the numbers of a version are. -/
structure Plain (s : Str) : Prop where
  nonempty : s ≠ []
  chars : ∀ c ∈ s, c ≠ '.' ∧ isSpace c = false

theorem plain_of_digits? {s : Str} {n : Nat} (h : digits? s = some n) : Plain s := by
  unfold digits? at h
  split at h
  · rename_i hall
    refine ⟨hall.1, fun c hc => ?_⟩
    have hdigit := List.all_eq_true.mp hall.2 c hc
    refine ⟨?_, isSpace_of_isDigit hdigit⟩
    rintro rfl
    exact absurd hdigit (by decide)
  · cases h

theorem itoa_plain (n : Int) : Plain (itoa n) := by
  have hdigits := plain_of_digits? (digits?_toDigits n.natAbs)
  unfold itoa
  split
  · refine ⟨by simp, fun c hc => ?_⟩
    rcases List.mem_cons.mp hc with rfl | hc
    · decide
    · exact hdigits.chars c hc
  · exact hdigits

/-- Major and minor are read up to the first two dots, whatever follows. -/
theorem majorMinor_append {major minor patch : Str} (hmajor : Plain major) (hminor : Plain minor)
    (hpatch : patch = [] ∨ ∃ rest, patch = '.' :: rest) :
    majorMinor (major ++ '.' :: (minor ++ patch)) = (atoiValue major, atoiValue minor) := by
  have hdot : ∀ s, Plain s → '.' ∉ s := fun s hs hmem => (hs.chars '.' hmem).1 rfl
  have hstart : (major ++ '.' :: (minor ++ patch)).dropWhile isSpace =
      major ++ '.' :: (minor ++ patch) := by
    obtain ⟨c, t, rfl⟩ := List.exists_cons_of_ne_nil hmajor.nonempty
    simp [(hmajor.chars c List.mem_cons_self).2]
  have hlast : ∀ c, (major ++ '.' :: minor).getLast? = some c → isSpace c = false := by
    intro c hc
    rw [List.getLast?_append_of_ne_nil _ (by simp),
      List.getLast?_cons_of_ne_nil hminor.nonempty] at hc
    exact (hminor.chars c (List.mem_of_getLast? hc)).2
  obtain ⟨patch', hpatch', htrim⟩ : ∃ patch', (patch' = [] ∨ ∃ rest, patch' = '.' :: rest) ∧
      trimSpace (major ++ '.' :: (minor ++ patch)) = major ++ '.' :: (minor ++ patch') := by
    have happend : major ++ '.' :: (minor ++ patch) = (major ++ '.' :: minor) ++ patch := by simp
    rcases hpatch with rfl | ⟨rest, rfl⟩
    · refine ⟨[], .inl rfl, ?_⟩
      rw [trimSpace, hstart, happend, rdropWhile_append hlast]
      simp
    · refine ⟨'.' :: rest.rdropWhile isSpace, .inr ⟨_, rfl⟩, ?_⟩
      have hkept := rdropWhile_append (p := isSpace) (s := ['.']) (by simp; decide) rest
      rw [trimSpace, hstart, happend, rdropWhile_append hlast]
      simpa using hkept
  unfold majorMinor
  rw [htrim, cut_append (hdot major hmajor)]
  rcases hpatch' with rfl | ⟨rest, rfl⟩
  · simp [cut_of_not_mem (hdot minor hminor)]
  · simp [cut_append (hdot minor hminor)]

/-- What fits in the integers of the language. -/
def InRange (n : Int) : Prop := -(2 ^ 63) ≤ n ∧ n ≤ 2 ^ 63 - 1

theorem atoiValue_inRange (s : Str) : InRange (atoiValue s) := by
  unfold atoiValue InRange
  split
  · decide
  · omega

theorem atoiValue_itoa {n : Int} (h : InRange n) : atoiValue (itoa n) = n := by
  unfold InRange at h
  simp only [atoiValue, signed?_itoa]
  omega

theorem majorMinor_inRange (v : Str) : InRange (majorMinor v).1 ∧ InRange (majorMinor v).2 := by
  unfold majorMinor
  split
  · exact ⟨atoiValue_inRange _, by simp [InRange]⟩
  · exact ⟨atoiValue_inRange _, atoiValue_inRange _⟩

theorem majorMinor_versionText {major minor : Int} (hmajor : InRange major)
    (hminor : InRange minor) : majorMinor (versionText major minor) = (major, minor) := by
  have hread : majorMinor (itoa major ++ '.' :: (itoa minor ++ [])) = _ :=
    majorMinor_append (itoa_plain major) (itoa_plain minor) (.inl rfl)
  rw [List.append_nil, atoiValue_itoa hmajor, atoiValue_itoa hminor] at hread
  exact hread

/-- A version that begins with two numbers, behind which there is nothing or a
patch part. -/
def Numbered (v : Str) : Prop :=
  ∃ major minor patch : Str, (digits? major).isSome ∧ (digits? minor).isSome ∧
    (patch = [] ∨ ∃ rest, patch = '.' :: rest) ∧ v = major ++ '.' :: (minor ++ patch)

/-- Neither number of the version is negative. -/
def Natural (v : Str) : Prop := 0 ≤ (majorMinor v).1 ∧ 0 ≤ (majorMinor v).2

theorem atoiValue_of_digits? {s : Str} {n : Nat} (h : digits? s = some n) : 0 ≤ atoiValue s := by
  simp only [atoiValue, signed?_of_digits? h]
  omega

theorem Numbered.natural {v : Str} (h : Numbered v) : Natural v := by
  obtain ⟨major, minor, patch, hmajor, hminor, hpatch, rfl⟩ := h
  obtain ⟨m, hm⟩ := Option.isSome_iff_exists.mp hmajor
  obtain ⟨n, hn⟩ := Option.isSome_iff_exists.mp hminor
  unfold Natural
  rw [majorMinor_append (plain_of_digits? hm) (plain_of_digits? hn) hpatch]
  exact ⟨atoiValue_of_digits? hm, atoiValue_of_digits? hn⟩

theorem sign_wrap64_nonneg {n : Int} (h : InRange n) : 0 ≤ (wrap64 n).sign ↔ 0 ≤ n := by
  have hwrap : wrap64 n = n := by
    unfold InRange at h
    refine Int.bmod_eq_of_le ?_ ?_ <;> omega
  rw [hwrap, Int.sign_nonneg_iff]

/-- Between versions without negative numbers the comparison is the
lexicographic order. -/
theorem compareMajorMinor_nonneg {a b : Str} (ha : Natural a) (hb : Natural b) :
    0 ≤ compareMajorMinor a b ↔ toLex (majorMinor b) ≤ toLex (majorMinor a) := by
  have hmajor := (majorMinor_inRange a).1
  have hmajor' := (majorMinor_inRange b).1
  have hminor := (majorMinor_inRange a).2
  have hminor' := (majorMinor_inRange b).2
  unfold Natural at ha hb
  unfold InRange at hmajor hmajor' hminor hminor'
  rw [Prod.Lex.toLex_le_toLex]
  unfold compareMajorMinor
  split
  · rename_i hne
    rw [sign_wrap64_nonneg (by unfold InRange; omega)]
    omega
  · rename_i heq
    rw [sign_wrap64_nonneg (by unfold InRange; omega)]
    omega

/-! ## What the gate accepts -/

/-- The minor version released before the given one. -/
def releasedBefore : Int × Int → Option (Int × Int)
  | (major, minor) =>
    if minor > 0 then some (major, minor - 1)
    else if major > 1 then some (major - 1, lastMinorOfPriorMajor)
    else none

/-- Written as its own major and minor and nothing else. -/
def Canonical (v : Str) : Prop := v = versionText (majorMinor v).1 (majorMinor v).2

theorem eq_versionText_iff {v : Str} {major minor : Int} (hmajor : InRange major)
    (hminor : InRange minor) :
    v = versionText major minor ↔ Canonical v ∧ majorMinor v = (major, minor) := by
  unfold Canonical
  constructor
  · rintro rfl
    rw [majorMinor_versionText hmajor hminor]
    exact ⟨rfl, rfl⟩
  · rintro ⟨hcanonical, hread⟩
    rw [hread] at hcanonical
    exact hcanonical

theorem majorMinor_operatorMajorMinor (operator : Str) :
    majorMinor (operatorMajorMinor operator) = majorMinor operator :=
  majorMinor_versionText (majorMinor_inRange operator).1 (majorMinor_inRange operator).2

theorem mem_acceptedCrVersions {operator crVersion : Str} :
    crVersion ∈ acceptedCrVersions (operatorMajorMinor operator) ↔ Canonical crVersion ∧
      (majorMinor crVersion = majorMinor operator ∨
        releasedBefore (majorMinor operator) = some (majorMinor crVersion)) := by
  obtain ⟨hmajor, hminor⟩ := majorMinor_inRange operator
  unfold acceptedCrVersions releasedBefore
  rw [majorMinor_operatorMajorMinor]
  generalize hop : majorMinor operator = op at *
  obtain ⟨major, minor⟩ := op
  dsimp only at hmajor hminor ⊢
  unfold InRange at hmajor hminor
  split
  · rw [List.mem_pair, eq_versionText_iff (by unfold InRange; omega) (by unfold InRange; omega),
      eq_versionText_iff hmajor hminor, Option.some.injEq, eq_comm (a := (major, minor - 1))]
    tauto
  split
  · rw [List.mem_pair, eq_versionText_iff (by unfold InRange; omega) (by simp [InRange,
      lastMinorOfPriorMajor]), eq_versionText_iff hmajor hminor, Option.some.injEq,
      eq_comm (a := (major - 1, lastMinorOfPriorMajor))]
    tauto
  · rw [List.mem_singleton, eq_versionText_iff hmajor hminor]
    simp

/-- What was released before a version is below it, by one in the first number
that differs. -/
theorem releasedBefore_lt {v v' : Int × Int} (h : releasedBefore v = some v') :
    toLex v' < toLex v ∧ (v.1 ≠ v'.1 → v.1 - v'.1 = 1) ∧ (v.1 = v'.1 → v.2 - v'.2 = 1) := by
  obtain ⟨major, minor⟩ := v
  rw [Prod.Lex.toLex_lt_toLex]
  unfold releasedBefore at h
  dsimp only at h
  split at h
  · cases h
    dsimp only
    omega
  split at h
  · cases h
    dsimp only
    omega
  · cases h

theorem not_newer_of_released {operator crVersion : Str}
    (h : majorMinor crVersion = majorMinor operator ∨
      releasedBefore (majorMinor operator) = some (majorMinor crVersion)) :
    toLex (majorMinor crVersion) ≤ toLex (majorMinor operator) ∧
      0 ≤ compareMajorMinor operator crVersion := by
  unfold compareMajorMinor
  rcases h with heq | hbefore
  · rw [heq]
    refine ⟨le_refl _, ?_⟩
    rw [if_neg (not_not.mpr rfl), sub_self]
    decide
  · obtain ⟨hlt, hmajor, hminor⟩ := releasedBefore_lt hbefore
    refine ⟨hlt.le, ?_⟩
    split
    · rename_i hne
      rw [hmajor hne]
      decide
    · rename_i heq
      rw [hminor (not_not.mp heq)]
      decide

theorem reconcileVersionGate_accepted {operator crVersion lastObserved : Str} :
    reconcileVersionGate operator crVersion lastObserved = .accepted ↔
      crVersion ∈ acceptedCrVersions (operatorMajorMinor operator) ∧
        (lastObserved = [] ∨ 0 ≤ compareMajorMinor crVersion lastObserved) := by
  unfold reconcileVersionGate
  dsimp only
  constructor
  · intro h
    split at h
    · cases h
    split at h
    · cases h
    rename_i hlower
    split at h
    · cases h
    rename_i hmember
    refine ⟨not_not.mp hmember, ?_⟩
    by_contra hcon
    obtain ⟨hlast, hbelow⟩ := not_or.mp hcon
    exact hlower ⟨hlast, not_le.mp hbelow⟩
  · rintro ⟨hmember, hlower⟩
    have hnewer := (not_newer_of_released (mem_acceptedCrVersions.mp hmember).2).2
    rw [if_neg (fun h => absurd h.2 (not_lt.mpr hnewer)), if_neg, if_neg (not_not.mpr hmember)]
    rintro ⟨hlast, hbelow⟩
    exact hlower.elim hlast (not_le.mpr hbelow)

/-- The contract version is the operator's minor version or the one released
before it, and not below the one observed last. -/
structure Acceptable (operator crVersion lastObserved : Str) : Prop where
  released : majorMinor crVersion = majorMinor operator ∨
    releasedBefore (majorMinor operator) = some (majorMinor crVersion)
  notLower : lastObserved = [] ∨ toLex (majorMinor lastObserved) ≤ toLex (majorMinor crVersion)

theorem reconcileVersionGate_accepted_iff {operator crVersion lastObserved : Str}
    (hcr : Natural crVersion) (hlast : lastObserved = [] ∨ Natural lastObserved) :
    reconcileVersionGate operator crVersion lastObserved = .accepted ↔
      Canonical crVersion ∧ Acceptable operator crVersion lastObserved := by
  have horder : (lastObserved = [] ∨ 0 ≤ compareMajorMinor crVersion lastObserved) ↔
      (lastObserved = [] ∨ toLex (majorMinor lastObserved) ≤ toLex (majorMinor crVersion)) := by
    rcases hlast with rfl | hlast
    · simp
    · rw [compareMajorMinor_nonneg hcr hlast]
  rw [reconcileVersionGate_accepted, mem_acceptedCrVersions, horder, and_assoc]
  exact and_congr_right fun _ => ⟨fun h => ⟨h.1, h.2⟩, fun h => ⟨h.released, h.notLower⟩⟩

/-- The gate goes by major and minor alone exactly for the contract versions that
are written without anything else: its last check compares texts. -/
theorem reconcileVersionGate_majorMinor_iff {operator crVersion lastObserved : Str}
    (hcr : Numbered crVersion) (hlast : lastObserved = [] ∨ Numbered lastObserved) :
    (reconcileVersionGate operator crVersion lastObserved = .accepted ↔
      Acceptable operator crVersion lastObserved) ↔
    (Acceptable operator crVersion lastObserved → Canonical crVersion) := by
  rw [reconcileVersionGate_accepted_iff hcr.natural (hlast.imp_right Numbered.natural)]
  constructor
  · exact fun h hacceptable => (h.mpr hacceptable).1
  · exact fun h => ⟨fun hboth => hboth.2, fun hacceptable => ⟨h hacceptable, hacceptable⟩⟩

theorem reconcileVersionGate_majorMinor_minorBack :
    (reconcileVersionGate "1.1.0" "1.0" "1.0" = .accepted ↔ Acceptable "1.1.0" "1.0" "1.0") ↔
    (Acceptable "1.1.0" "1.0" "1.0" → Canonical "1.0") :=
  have hnumbered : Numbered "1.0" :=
    ⟨"1", "0", [], by decide, by decide, .inl rfl, rfl⟩
  reconcileVersionGate_majorMinor_iff hnumbered (.inr hnumbered)

/-- Operator 0.1.2 refuses its own version as too old, because of the patch part. -/
theorem reconcileVersionGate_refuses_patch :
    Numbered "0.1.2" ∧ Acceptable "0.1.2" "0.1.2" [] ∧
      reconcileVersionGate "0.1.2" "0.1.2" [] ≠ .accepted :=
  ⟨⟨"0", "1", ".2", by decide, by decide, .inr ⟨_, rfl⟩, rfl⟩, ⟨.inl rfl, .inl rfl⟩, by decide⟩

end ValkeyOperator.Cluster

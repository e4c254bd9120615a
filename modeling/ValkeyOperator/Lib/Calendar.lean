import ValkeyOperator.Lib.Text

/-! Dates and times of day in UTC, and their compact text.

Seconds are counted from the start of the year 1. The calendar repeats after 400 years,
so a day is found by cutting off cycles of 400, 100, 4 years and 1 year, the last century
and the last year of their cycles being a day longer. Two times with the same text are the
same time. -/

namespace ValkeyOperator.Calendar
open Text

def isLeap (year : Int) : Bool := year % 4 = 0 && (year % 100 ≠ 0 || year % 400 = 0)

def monthLengths (leap : Bool) : List Nat :=
  [31, if leap then 29 else 28, 31, 30, 31, 30, 31, 31, 30, 31, 30, 31]

/-- The month and the day in it, for a day counted from the start of month `m`. -/
def monthDay : List Nat → Nat → Nat → Nat × Nat
  | [], m, d => (m, d + 1)
  | len :: rest, m, d => if d < len then (m, d + 1) else monthDay rest (m + 1) (d - len)

/-- The year in a cycle of 400 years, and the day in that year, both from 0. -/
def cycleDay (d : Nat) : Nat × Nat :=
  let n100 := min (d / 36524) 3
  let d := d - 36524 * n100
  let n4 := d / 1461
  let d := d - 1461 * n4
  let n1 := min (d / 365) 3
  (100 * n100 + 4 * n4 + n1, d - 365 * n1)

/-- The year of a day, and its number in the year, from 0. -/
def yearDay (days : Int) : Int × Nat :=
  let cd := cycleDay (days % 146097).toNat
  (400 * (days / 146097) + cd.1 + 1, cd.2)

structure DateTime where
  year : Int
  month : Nat
  day : Nat
  hour : Nat
  minute : Nat
  second : Nat
deriving DecidableEq

def dateTime (t : Int) : DateTime :=
  let yd := yearDay (t / 86400)
  let md := monthDay (monthLengths (isLeap yd.1)) 1 yd.2
  let s := (t % 86400).toNat
  ⟨yd.1, md.1, md.2, s / 3600, s / 60 % 60, s % 60⟩

/-- The digits of a number, filled up with zeros to the width. -/
def pad (width n : Nat) : Str :=
  List.replicate (width - (Nat.toDigits 10 n).length) '0' ++ Nat.toDigits 10 n

/-- A year before the year 0 has a sign. -/
def yearText (year : Int) : Str :=
  if year < 0 then '-' :: pad 4 year.natAbs else pad 4 year.natAbs

/-- The date and the time of day without separators, as the layout `20060102150405`. -/
def compact (t : Int) : Str :=
  let d := dateTime t
  yearText d.year ++ pad 2 d.month ++ pad 2 d.day ++ pad 2 d.hour ++ pad 2 d.minute ++ pad 2 d.second

/-- The same with separators, in the form of RFC 3339. -/
def rfc3339 (t : Int) : Str :=
  let d := dateTime t
  yearText d.year ++ '-' :: pad 2 d.month ++ '-' :: pad 2 d.day ++ 'T' :: pad 2 d.hour ++
    ':' :: pad 2 d.minute ++ ':' :: pad 2 d.second ++ ['Z']

/-! ## Padded numbers -/

theorem ofDigitChars_pad (width n : Nat) : Nat.ofDigitChars 10 (pad width n) 0 = n := by
  rw [pad, Nat.ofDigitChars_append, Nat.ofDigitChars_replicate_zero, Nat.mul_zero,
    Nat.ofDigitChars_ten_toDigits]

theorem pad_injective {width m n : Nat} (h : pad width m = pad width n) : m = n := by
  rw [← ofDigitChars_pad width m, h, ofDigitChars_pad]

theorem length_pad {width n : Nat} (hwidth : 0 < width) (h : n < 10 ^ width) :
    (pad width n).length = width := by
  have hle := (Nat.length_toDigits_le_iff (by omega : 1 < 10) hwidth).mpr h
  rw [pad, List.length_append, List.length_replicate]
  omega

theorem isDigit_of_mem_pad {width n : Nat} {c : Char} (h : c ∈ pad width n) : c.isDigit = true := by
  rcases List.mem_append.mp h with h | h
  · rw [List.eq_of_mem_replicate h]
    rfl
  · exact Nat.isDigit_of_mem_toDigits (by omega) (by omega) h

theorem yearText_injective {year year' : Int} (h : yearText year = yearText year') : year = year' := by
  have hsign : ∀ {s : Str} {n : Nat}, pad 4 n ≠ '-' :: s := by
    intro s n hs
    exact absurd (isDigit_of_mem_pad (hs ▸ List.mem_cons_self : '-' ∈ pad 4 n)) (by decide)
  unfold yearText at h
  split at h <;> split at h
  · have := pad_injective (List.cons.inj h).2
    omega
  · exact absurd h.symm hsign
  · exact absurd h hsign
  · have := pad_injective h
    omega

/-! ## Dates -/

theorem month_le (lengths : List Nat) (m d : Nat) :
    m ≤ (monthDay lengths m d).1 ∧ (monthDay lengths m d).1 ≤ m + lengths.length := by
  induction lengths generalizing m d with
  | nil => exact ⟨le_rfl, le_rfl⟩
  | cons len rest ih =>
    unfold monthDay
    split
    · exact ⟨le_rfl, by simp⟩
    · have := ih (m + 1) (d - len)
      rw [List.length_cons]
      omega

theorem day_le {lengths : List Nat} (h : ∀ len ∈ lengths, len ≤ 31) {d : Nat}
    (hd : d < lengths.sum + 31) (m : Nat) : (monthDay lengths m d).2 ≤ 31 := by
  induction lengths generalizing m d with
  | nil =>
    rw [List.sum_nil] at hd
    change d + 1 ≤ 31
    omega
  | cons len rest ih =>
    obtain ⟨hlen, hrest⟩ := List.forall_mem_cons.mp h
    rw [List.sum_cons] at hd
    unfold monthDay
    split
    · change d + 1 ≤ 31
      omega
    · exact ih hrest (by omega) _

theorem monthDay_injective {lengths : List Nat} {m d d' : Nat}
    (h : monthDay lengths m d = monthDay lengths m d') : d = d' := by
  induction lengths generalizing m d d' with
  | nil => exact Nat.succ.inj (Prod.mk.inj h).2
  | cons len rest ih =>
    have hd := (month_le rest (m + 1) (d - len)).1
    have hd' := (month_le rest (m + 1) (d' - len)).1
    unfold monthDay at h
    split at h <;> split at h
    · exact Nat.succ.inj (Prod.mk.inj h).2
    · rw [← h] at hd'
      change m + 1 ≤ m at hd'
      omega
    · rw [h] at hd
      change m + 1 ≤ m at hd
      omega
    · have := ih h
      omega

/-- A day of the cycle put together from the parts its year and its number determine. -/
theorem cycleDay_parts {d : Nat} (h : d < 146097) :
    ∃ n100 n4 n1, n100 ≤ 3 ∧ n4 ≤ 24 ∧ n1 ≤ 3 ∧ (cycleDay d).1 = 100 * n100 + 4 * n4 + n1 ∧
      (cycleDay d).2 ≤ 365 ∧ d = 36524 * n100 + 1461 * n4 + 365 * n1 + (cycleDay d).2 := by
  have hcentury : d - 36524 * min (d / 36524) 3 ≤ 36524 := by omega
  refine ⟨_, _, _, ?_, ?_, ?_, rfl, ?_, ?_⟩
  · exact min_le_right _ _
  · omega
  · exact min_le_right _ _
  · change d - _ - _ - _ ≤ 365
    omega
  · change d = _ + _ + _ + (d - _ - _ - _)
    omega

theorem yearDay_lt (days : Int) : (yearDay days).2 ≤ 365 := by
  obtain ⟨_, _, _, -, -, -, -, hlt, -⟩ := cycleDay_parts (by omega : (days % 146097).toNat < 146097)
  exact hlt

theorem yearDay_injective {days days' : Int} (h : yearDay days = yearDay days') : days = days' := by
  obtain ⟨n100, n4, n1, h100, h4, h1, hyear, -, hd⟩ :=
    cycleDay_parts (by omega : (days % 146097).toNat < 146097)
  obtain ⟨n100', n4', n1', h100', h4', h1', hyear', -, hd'⟩ :=
    cycleDay_parts (by omega : (days' % 146097).toNat < 146097)
  obtain ⟨hy, hyday⟩ := Prod.mk.inj h
  rw [hyear, hyear'] at hy
  clear hyear hyear'
  have hcycle : days / 146097 = days' / 146097 := by
    clear hd hd'
    omega
  have hparts : n100 = n100' ∧ n4 = n4' ∧ n1 = n1' := by
    clear hd hd'
    omega
  have hday : (days % 146097).toNat = (days' % 146097).toNat := by
    change (cycleDay _).2 = (cycleDay _).2 at hyday
    rw [hd, hd', hparts.1, hparts.2.1, hparts.2.2, hyday]
  omega

theorem one_le_year {days : Int} (h : 0 ≤ days) : 1 ≤ (yearDay days).1 := by
  change 1 ≤ 400 * (days / 146097) + _ + 1
  omega

theorem dateTime_injective {t t' : Int} (h : dateTime t = dateTime t') : t = t' := by
  unfold dateTime at h
  dsimp only at h
  rw [DateTime.mk.injEq] at h
  obtain ⟨hyear, hmonth, hday, hhour, hminute, hsecond⟩ := h
  rw [hyear] at hmonth hday
  have hyday := monthDay_injective (Prod.ext hmonth hday)
  have hdays : t / 86400 = t' / 86400 := yearDay_injective (Prod.ext hyear hyday)
  omega

/-! ## Compact texts -/

/-- Every part behind the year has two digits. -/
theorem dateTime_lt (t : Int) :
    (dateTime t).month < 100 ∧ (dateTime t).day < 100 ∧ (dateTime t).hour < 100 ∧
      (dateTime t).minute < 100 ∧ (dateTime t).second < 100 := by
  have hyday := yearDay_lt (t / 86400)
  have hlengths : ∀ leap, (∀ len ∈ monthLengths leap, len ≤ 31) ∧ 365 < (monthLengths leap).sum + 31 ∧
      (monthLengths leap).length = 12 := by decide
  obtain ⟨hlen, hsum, hlength⟩ := hlengths (isLeap (yearDay (t / 86400)).1)
  have hmonth := (month_le (monthLengths (isLeap (yearDay (t / 86400)).1)) 1 (yearDay (t / 86400)).2).2
  have hday := day_le hlen (by omega : (yearDay (t / 86400)).2 < _) 1
  unfold dateTime
  dsimp only
  omega

theorem compact_injective {t t' : Int} (h : compact t = compact t') : t = t' := by
  obtain ⟨hm, hd, hh, hmi, hs⟩ := dateTime_lt t
  obtain ⟨hm', hd', hh', hmi', hs'⟩ := dateTime_lt t'
  have hlen : ∀ {a b : Nat}, a < 100 → b < 100 → (pad 2 a).length = (pad 2 b).length := by
    intro a b ha hb
    rw [length_pad (by omega) (by omega), length_pad (by omega) (by omega)]
  -- the parts behind the year are as long on both sides
  obtain ⟨h, hsecond⟩ := List.append_inj' h (hlen hs hs')
  obtain ⟨h, hminute⟩ := List.append_inj' h (hlen hmi hmi')
  obtain ⟨h, hhour⟩ := List.append_inj' h (hlen hh hh')
  obtain ⟨h, hday⟩ := List.append_inj' h (hlen hd hd')
  obtain ⟨hyear, hmonth⟩ := List.append_inj' h (hlen hm hm')
  refine dateTime_injective (DateTime.mk.injEq .. ▸ ?_)
  exact ⟨yearText_injective hyear, pad_injective hmonth, pad_injective hday, pad_injective hhour,
    pad_injective hminute, pad_injective hsecond⟩

example : compact 63971078347 = "20280229235907" := by decide

/-- From the year 1 on, a text has only digits. -/
theorem isDigit_of_mem_compact {t : Int} (ht : 0 ≤ t) {c : Char} (h : c ∈ compact t) :
    c.isDigit = true := by
  have hyear : ¬ (dateTime t).year < 0 := by
    have := one_le_year (by omega : 0 ≤ t / 86400)
    change ¬ (yearDay (t / 86400)).1 < 0
    omega
  simp only [compact, yearText, if_neg hyear, List.mem_append] at h
  rcases h with ((((h | h) | h) | h) | h) | h <;> exact isDigit_of_mem_pad h

end ValkeyOperator.Calendar

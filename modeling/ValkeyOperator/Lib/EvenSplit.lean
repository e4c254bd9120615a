import Mathlib.Data.List.Basic
import Mathlib.Data.List.Nodup

/-! Cutting a list into `k` consecutive shares whose lengths differ by at most
one, the longer ones first. -/

namespace ValkeyOperator

/-- The length of share `i` of a list of length `total` cut into `k`. -/
def shareSize (total k i : Nat) : Nat := total / k + if i < total % k then 1 else 0

/-- Where share `i` begins. -/
def shareStart (total k i : Nat) : Nat := i * (total / k) + min i (total % k)

def evenShare {α : Type} (xs : List α) (k i : Nat) : List α :=
  (xs.drop (shareStart xs.length k i)).take (shareSize xs.length k i)

@[simp] theorem shareStart_zero (total k : Nat) : shareStart total k 0 = 0 := by
  simp [shareStart]

/-- Each share begins where the one before it ends. -/
theorem shareStart_succ (total k i : Nat) :
    shareStart total k (i + 1) = shareStart total k i + shareSize total k i := by
  unfold shareStart shareSize
  rw [Nat.add_mul]
  split <;> omega

theorem shareStart_le_add (total k i j : Nat) :
    shareStart total k i ≤ shareStart total k (i + j) := by
  induction j with
  | zero => exact Nat.le_refl _
  | succ j ih =>
    rw [← Nat.add_assoc, shareStart_succ]
    omega

theorem shareStart_self (total : Nat) {k : Nat} (hk : 0 < k) : shareStart total k k = total := by
  unfold shareStart
  rw [Nat.min_eq_right (Nat.le_of_lt (Nat.mod_lt total hk)), Nat.div_add_mod]

theorem length_evenShare {α : Type} (xs : List α) {k i : Nat} (hi : i < k) :
    (evenShare xs k i).length = shareSize xs.length k i := by
  have hnext := shareStart_succ xs.length k i
  have hle := shareStart_le_add xs.length k (i + 1) (k - (i + 1))
  rw [Nat.add_sub_cancel' hi, shareStart_self _ (by omega)] at hle
  rw [evenShare, List.length_take, List.length_drop]
  omega

/-- The longer shares come first, and they are longer by one. -/
theorem shareSize_antitone (total k : Nat) {i j : Nat} (h : i ≤ j) :
    shareSize total k j ≤ shareSize total k i ∧ shareSize total k i ≤ shareSize total k j + 1 := by
  unfold shareSize
  split <;> split <;> omega

theorem shareSize_pos {total k : Nat} (hk : 0 < k) (h : k ≤ total) (i : Nat) :
    0 < shareSize total k i :=
  Nat.add_pos_left (Nat.div_pos h hk) _

theorem flatMap_evenShare {α : Type} (xs : List α) {k : Nat} (hk : 0 < k) :
    (List.range k).flatMap (evenShare xs k) = xs := by
  have htake : ∀ j, (List.range j).flatMap (evenShare xs k) =
      xs.take (shareStart xs.length k j) := by
    intro j
    induction j with
    | zero => simp
    | succ j ih =>
      rw [List.range_succ, List.flatMap_append, ih, List.flatMap_singleton, evenShare,
        shareStart_succ, List.take_add]
  rw [htake, shareStart_self _ hk, List.take_length]

theorem exists_mem_evenShare {α : Type} {xs : List α} {k : Nat} (hk : 0 < k) {x : α}
    (hx : x ∈ xs) : ∃ i < k, x ∈ evenShare xs k i := by
  rw [← flatMap_evenShare xs hk, List.mem_flatMap] at hx
  obtain ⟨i, hi, hx⟩ := hx
  exact ⟨i, List.mem_range.mp hi, hx⟩

/-- An element that is listed once is in one share only. -/
theorem evenShare_unique {α : Type} {xs : List α} (h : xs.Nodup) {k i j : Nat} (hi : i < k)
    (hj : j < k) {x : α} (hxi : x ∈ evenShare xs k i) (hxj : x ∈ evenShare xs k j) : i = j := by
  rw [← flatMap_evenShare xs (show 0 < k by omega), List.nodup_flatMap] at h
  have hapart : ∀ a b, a < b → b < k → x ∈ evenShare xs k a → x ∉ evenShare xs k b := by
    intro a b hab hb ha
    have := List.pairwise_iff_getElem.mp h.2 a b (by simp; omega) (by simpa using hb) hab
    simp only [List.getElem_range] at this
    exact this ha
  rcases Nat.lt_trichotomy i j with hlt | heq | hgt
  · exact absurd hxj (hapart i j hlt hj hxi)
  · exact heq
  · exact absurd hxi (hapart j i hgt hi hxj)

end ValkeyOperator

import Mathlib.Data.List.Sort

/-! Sorting by a three-way comparison, without stability.

A sorting routine returns a permutation that is ordered by the comparison; which
of several equal elements comes first is its own affair. A `Sorter` is any such
routine. What holds for the first element of every sorter's output is what
holds for every least element of the input (`forall_head_iff`). -/

namespace ValkeyOperator

/-- A comparison in the sense of a strict weak order: negative for less,
positive for greater, zero for equivalent. -/
structure Compares {α : Type} (cmp : α → α → Int) : Prop where
  swap : ∀ a b, cmp a b < 0 ↔ 0 < cmp b a
  trans : ∀ a b c, cmp a b ≤ 0 → cmp b c ≤ 0 → cmp a c ≤ 0

theorem Compares.total {α : Type} {cmp : α → α → Int} (h : Compares cmp) (a b : α) :
    cmp a b ≤ 0 ∨ cmp b a ≤ 0 := by
  have := h.swap b a
  omega

theorem Compares.ofKey {α : Type} (key : α → Int) : Compares fun a b => key a - key b := by
  constructor <;> intros <;> omega

theorem Compares.of_lt {α β : Type} [LinearOrder β] (key : α → β) {cmp : α → α → Int}
    (hneg : ∀ a b, cmp a b < 0 ↔ key a < key b) (hpos : ∀ a b, 0 < cmp a b ↔ key b < key a) :
    Compares cmp := by
  have hle : ∀ a b, cmp a b ≤ 0 ↔ key a ≤ key b := fun a b => by
    rw [← not_lt, hpos, not_lt]
  constructor
  · intro a b
    rw [hneg, hpos]
  · intro a b c hab hbc
    rw [hle] at hab hbc ⊢
    exact le_trans hab hbc

/-- Comparing by `cmp` first and by `next` among equals. -/
theorem Compares.andThen {α : Type} {cmp next : α → α → Int} (h : Compares cmp)
    (h' : Compares next) : Compares fun a b => if cmp a b ≠ 0 then cmp a b else next a b := by
  constructor
  · intro a b
    have hs := h.swap a b
    have hs' := h.swap b a
    have hn := h'.swap a b
    split <;> split <;> omega
  · intro a b c hab hbc
    have hac := h.trans a b c
    have hca := h.trans c a b
    have hbca := h.trans b c a
    have s1 := h.swap a b
    have s2 := h.swap b a
    have s3 := h.swap b c
    have s4 := h.swap c b
    have s5 := h.swap a c
    have s6 := h.swap c a
    have hn := h'.trans a b c
    split at hab <;> split at hbc <;> split <;> omega

structure Sorter (α : Type) where
  sort : (α → α → Int) → List α → List α
  perm : ∀ cmp xs, (sort cmp xs).Perm xs
  sorted : ∀ cmp, Compares cmp → ∀ xs, (sort cmp xs).Pairwise fun a b => cmp a b ≤ 0

namespace Sorter

variable {α : Type}

theorem insertionSort_sorted {cmp : α → α → Int} (h : Compares cmp) (xs : List α) :
    (xs.insertionSort fun a b => cmp a b ≤ 0).Pairwise fun a b => cmp a b ≤ 0 := by
  have : Std.Total fun a b => cmp a b ≤ 0 := ⟨h.total⟩
  have : IsTrans α fun a b => cmp a b ≤ 0 := ⟨h.trans⟩
  exact List.pairwise_insertionSort _ xs

/-- Insertion sort, which keeps equal elements in order. -/
def insertion : Sorter α where
  sort cmp xs := xs.insertionSort fun a b => cmp a b ≤ 0
  perm _ xs := List.perm_insertionSort _ xs
  sorted _ h xs := insertionSort_sorted h xs

theorem mem_sort (S : Sorter α) {cmp : α → α → Int} {xs : List α} {x : α} :
    x ∈ S.sort cmp xs ↔ x ∈ xs := (S.perm cmp xs).mem_iff

theorem sort_eq_nil (S : Sorter α) {cmp : α → α → Int} {xs : List α} :
    S.sort cmp xs = [] ↔ xs = [] := by
  rw [← List.length_eq_zero_iff, (S.perm cmp xs).length_eq, List.length_eq_zero_iff]

/-- Where the comparison tells all elements apart, there is one way to sort them. -/
theorem sort_unique (S S' : Sorter α) {cmp : α → α → Int} (h : Compares cmp) {xs ys : List α}
    (hperm : xs.Perm ys) (hapart : ∀ a ∈ xs, ∀ b ∈ xs, cmp a b = 0 → a = b) :
    S.sort cmp xs = S'.sort cmp ys := by
  refine List.Perm.eq_of_pairwise (fun a b ha hb hab hba => ?_) (S.sorted cmp h xs)
    (S'.sorted cmp h ys) (((S.perm cmp xs).trans hperm).trans (S'.perm cmp ys).symm)
  have hzero : cmp a b = 0 := by
    have := h.swap a b
    omega
  exact hapart a (S.mem_sort.mp ha) b (hperm.mem_iff.mpr (S'.mem_sort.mp hb)) hzero

/-- Where the comparison tells all elements apart, sorting commutes with a map
that it does not notice. -/
theorem sort_map (S : Sorter α) {cmp : α → α → Int} (h : Compares cmp) {f : α → α}
    (hf : ∀ a b, cmp (f a) (f b) = cmp a b) {xs : List α}
    (hapart : ∀ a ∈ xs, ∀ b ∈ xs, cmp a b = 0 → a = b) :
    S.sort cmp (xs.map f) = (S.sort cmp xs).map f := by
  refine List.Perm.eq_of_pairwise ?_ (S.sorted cmp h (xs.map f)) ?_ ?_
  · intro a b ha hb hab hba
    obtain ⟨x, hx, rfl⟩ := List.mem_map.mp (S.mem_sort.mp ha)
    obtain ⟨y, hy, rfl⟩ := List.mem_map.mp hb
    rw [hf] at hab hba
    have hzero : cmp x y = 0 := by
      have := h.swap x y
      omega
    rw [hapart x hx y (S.mem_sort.mp hy) hzero]
  · refine List.pairwise_map.mpr ((S.sorted cmp h xs).imp ?_)
    intro a b hab
    rw [hf]
    exact hab
  · exact (S.perm cmp (xs.map f)).trans ((S.perm cmp xs).map f).symm

theorem head_le (S : Sorter α) {cmp : α → α → Int} (h : Compares cmp) {xs : List α} {x : α}
    (hx : (S.sort cmp xs).head? = some x) : ∀ y ∈ xs, cmp x y ≤ 0 := by
  intro y hy
  obtain ⟨rest, hsort⟩ := List.head?_eq_some_iff.mp hx
  have hs := S.sorted cmp h xs
  rw [hsort] at hs
  rcases List.mem_cons.mp (hsort ▸ S.mem_sort.mpr hy) with rfl | hr
  · have := h.total y y; omega
  · exact (List.pairwise_cons.mp hs).1 y hr

open Classical in
/-- Any least element may come first. -/
theorem exists_head {cmp : α → α → Int} (h : Compares cmp) {xs : List α} {x : α} (hx : x ∈ xs)
    (hmin : ∀ y ∈ xs, cmp x y ≤ 0) : ∃ S : Sorter α, (S.sort cmp xs).head? = some x := by
  refine ⟨⟨fun c ys => if c = cmp ∧ ys = xs then x :: (insertion.sort cmp (xs.erase x))
    else insertion.sort c ys, ?_, ?_⟩, by simp⟩
  · intro c ys
    split
    · rename_i he
      rw [he.2]
      exact ((insertion.perm _ _).cons x).trans (List.perm_cons_erase hx).symm
    · exact insertion.perm c ys
  · intro c hc ys
    split
    · rename_i he
      rw [he.1]
      refine List.pairwise_cons.mpr ⟨fun y hy => hmin y ?_, insertion.sorted cmp h _⟩
      exact List.mem_of_mem_erase (insertion.mem_sort.mp hy)
    · exact insertion.sorted c hc ys

/-- What every sorter puts first satisfies `P` exactly when all least elements do. -/
theorem forall_head_iff {cmp : α → α → Int} (h : Compares cmp) {xs : List α} {P : α → Prop} :
    (∀ S : Sorter α, ∀ x, (S.sort cmp xs).head? = some x → P x) ↔
      ∀ x ∈ xs, (∀ y ∈ xs, cmp x y ≤ 0) → P x := by
  constructor
  · intro hall x hx hmin
    obtain ⟨S, hS⟩ := exists_head h hx hmin
    exact hall S x hS
  · intro hall S x hx
    exact hall x (S.mem_sort.mp (List.mem_of_mem_head? hx)) (S.head_le h hx)

end Sorter

/-- In a list that ascends strictly by a key, as many elements come before one as
have a smaller key. -/
theorem countP_of_ascending {α β : Type} [LinearOrder β] (key : α → β) {xs : List α}
    (h : xs.Pairwise fun a b => key a < key b) {i : Nat} {x : α} (hx : xs[i]? = some x)
    {p : α → Bool} (hp : ∀ y, p y = true ↔ key y < key x) : xs.countP p = i := by
  induction xs generalizing i with
  | nil => cases hx
  | cons y ys ih =>
    obtain ⟨hy, hys⟩ := List.pairwise_cons.mp h
    cases i with
    | zero =>
      cases hx
      refine List.countP_eq_zero.mpr fun z hz => ?_
      rw [hp, not_lt]
      rcases List.mem_cons.mp hz with rfl | hz
      · exact le_refl _
      · exact le_of_lt (hy z hz)
    | succ i =>
      rw [List.getElem?_cons_succ] at hx
      have hlt : p y = true := (hp y).mpr (hy x (List.mem_of_getElem? hx))
      rw [List.countP_cons, ih hys hx, if_pos hlt]

end ValkeyOperator

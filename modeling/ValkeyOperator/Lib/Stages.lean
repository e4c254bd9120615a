/-! Computations in stages, each of which may end the whole.

A stage hands a value on to the next one or ends everything with a result.
`Ensures` follows what holds at the ends and what is handed on, stage by stage. -/

namespace ValkeyOperator

abbrev Staged (ρ α : Type) := Except ρ α

namespace Staged

variable {ρ α β : Type}

/-- The result, whichever stage it comes from. -/
def result : Staged ρ ρ → ρ
  | .ok r => r
  | .error r => r

theorem bind_eq_ok {x : Staged ρ α} {f : α → Staged ρ β} {b : β} :
    (x >>= f) = .ok b ↔ ∃ a, x = .ok a ∧ f a = .ok b := by
  cases x with
  | error r =>
    constructor
    · intro h
      cases h
    · rintro ⟨_, ha, -⟩
      cases ha
  | ok a =>
    constructor
    · intro h
      exact ⟨a, rfl, h⟩
    · rintro ⟨_, ha, h⟩
      cases ha
      exact h

/-- A loop that goes through has a result for each element, and no others. -/
theorem mapM_eq_ok {f : α → Staged ρ β} {xs : List α} {ys : List β} (h : xs.mapM f = .ok ys) :
    (∀ x ∈ xs, ∃ y ∈ ys, f x = .ok y) ∧ ∀ y ∈ ys, ∃ x ∈ xs, f x = .ok y := by
  induction xs generalizing ys with
  | nil =>
    cases h
    exact ⟨fun x hx => (nomatch hx), fun y hy => nomatch hy⟩
  | cons x xs ih =>
    rw [List.mapM_cons] at h
    obtain ⟨y, hy, hrest⟩ := bind_eq_ok.mp h
    obtain ⟨ys, hys, hpure⟩ := bind_eq_ok.mp hrest
    cases hpure
    obtain ⟨hleft, hright⟩ := ih hys
    constructor
    · refine List.forall_mem_cons.mpr ⟨⟨y, List.mem_cons_self, hy⟩, fun x' hx' => ?_⟩
      obtain ⟨y', hy', heq⟩ := hleft x' hx'
      exact ⟨y', List.mem_cons_of_mem _ hy', heq⟩
    · refine List.forall_mem_cons.mpr ⟨⟨x, List.mem_cons_self, hy⟩, fun y' hy' => ?_⟩
      obtain ⟨x', hx', heq⟩ := hright y' hy'
      exact ⟨x', List.mem_cons_of_mem _ hx', heq⟩

/-- If the stage ends everything, `P` holds of the result; if not, `Q` holds of
the value handed on. -/
def Ensures (x : Staged ρ α) (P : ρ → Prop) (Q : α → Prop) : Prop :=
  match x with
  | .error r => P r
  | .ok a => Q a

theorem Ensures.bind {x : Staged ρ α} {f : α → Staged ρ β} {P : ρ → Prop} {Q : α → Prop}
    {R : β → Prop} (hx : Ensures x P Q) (hf : ∀ a, Q a → Ensures (f a) P R) :
    Ensures (x >>= f) P R := by
  cases x with
  | error r => exact hx
  | ok a => exact hf a hx

theorem Ensures.mono {x : Staged ρ α} {P P' : ρ → Prop} {Q Q' : α → Prop} (h : Ensures x P Q)
    (hP : ∀ r, P r → P' r) (hQ : ∀ a, Q a → Q' a) : Ensures x P' Q' := by
  cases x with
  | error r => exact hP r h
  | ok a => exact hQ a h

theorem Ensures.result {x : Staged ρ ρ} {P : ρ → Prop} (h : Ensures x P P) : P x.result := by
  cases x <;> exact h

end Staged

end ValkeyOperator

import Mathlib.Logic.Relation

/-! Runs of a system that takes one event after another.

Which events may happen in a state is a parameter: a result about the runs under a
condition is one about the runs whose events all meet it. -/

namespace ValkeyOperator

variable {W E : Type}

/-- One event that is allowed where it happens. -/
def Moves (step : W → E → W) (allowed : W → E → Prop) (a b : W) : Prop :=
  ∃ e, allowed a e ∧ b = step a e

abbrev Runs (step : W → E → W) (allowed : W → E → Prop) : W → W → Prop :=
  Relation.ReflTransGen (Moves step allowed)

namespace Runs

variable {step : W → E → W} {allowed : W → E → Prop} {a b : W}

/-- What every allowed event preserves holds all along a run. -/
theorem preserves {I : W → Prop} (hstep : ∀ w e, allowed w e → I w → I (step w e))
    (hrun : Runs step allowed a b) (ha : I a) : I b := by
  induction hrun with
  | refl => exact ha
  | tail _ hmove ih =>
    obtain ⟨e, hallowed, rfl⟩ := hmove
    exact hstep _ e hallowed ih

theorem extend {e : E} (hrun : Runs step allowed a b) (hallowed : allowed b e) :
    Runs step allowed a (step b e) :=
  .tail hrun ⟨e, hallowed, rfl⟩

/-- Each event of a list is allowed where it happens. -/
def Allows (step : W → E → W) (allowed : W → E → Prop) : W → List E → Prop
  | _, [] => True
  | w, e :: rest => allowed w e ∧ Allows step allowed (step w e) rest

instance Allows.decidable [∀ w e, Decidable (allowed w e)] :
    (w : W) → (events : List E) → Decidable (Allows step allowed w events)
  | _, [] => .isTrue trivial
  | w, e :: rest =>
    have := Allows.decidable (step w e) rest
    inferInstanceAs (Decidable (_ ∧ _))

/-- What may be assumed all along decides which events are allowed. -/
theorem Allows.imp {other : W → E → Prop} {I : W → Prop}
    (hstep : ∀ w e, I w → allowed w e → other w e ∧ I (step w e)) {a : W} (ha : I a)
    {events : List E} (h : Allows step allowed a events) : Allows step other a events := by
  induction events generalizing a with
  | nil => trivial
  | cons e rest ih =>
    obtain ⟨hother, hnext⟩ := hstep a e ha h.1
    exact ⟨hother, ih hnext h.2⟩

theorem of_allows {a : W} {events : List E} (h : Allows step allowed a events) :
    Runs step allowed a (events.foldl step a) := by
  induction events generalizing a with
  | nil => exact .refl
  | cons e rest ih => exact .head ⟨e, h.1, rfl⟩ (ih h.2)

/-- If the allowed events are those that preserve a property, the runs of allowed events
are those that have it all along. -/
theorem allows_iff {I : W → Prop} (hstep : ∀ w e, I w → (I (step w e) ↔ allowed w e))
    {a : W} (ha : I a) {events : List E} :
    Allows step allowed a events ↔ ∀ k, I ((events.take k).foldl step a) := by
  induction events generalizing a with
  | nil => simpa [Allows] using ha
  | cons e rest ih =>
    constructor
    · rintro ⟨hallowed, hrest⟩ k
      have he : I (step a e) := (hstep a e ha).mpr hallowed
      cases k with
      | zero => exact ha
      | succ k => exact (ih he).mp hrest k
    · intro h
      have he : I (step a e) := h 1
      exact ⟨(hstep a e ha).mp he, (ih he).mpr fun k => h (k + 1)⟩

/-- A list of events that are allowed wherever they happen is a run. -/
theorem of_forall {events : List E} (h : ∀ e ∈ events, ∀ w, allowed w e) (a : W) :
    Runs step allowed a (events.foldl step a) := by
  refine of_allows ?_
  induction events generalizing a with
  | nil => trivial
  | cons e rest ih =>
    obtain ⟨he, hrest⟩ := List.forall_mem_cons.mp h
    exact ⟨he a, ih hrest (step a e)⟩

theorem of_events (hall : ∀ w e, allowed w e) (a : W) (events : List E) :
    Runs step allowed a (events.foldl step a) :=
  of_forall (fun e _ w => hall w e) a

end Runs

end ValkeyOperator

import ValkeyOperator.Lib.Text

/-! Status conditions of an API object: a list with at most one condition of each
type, replaced in place. -/

namespace ValkeyOperator
open Text

structure Condition (τ : Type) where
  type : τ
  status : Bool
  reason : Str
  message : Str
  observedGeneration : Int
deriving DecidableEq

namespace Condition

variable {τ : Type} [DecidableEq τ]

/-- Replace the condition of the same type, or append it. -/
def set (c : Condition τ) : List (Condition τ) → List (Condition τ)
  | [] => [c]
  | d :: rest => if d.type = c.type then c :: rest else d :: set c rest

def find (cs : List (Condition τ)) (type : τ) : Option (Condition τ) :=
  cs.find? fun c => c.type = type

def isTrue (cs : List (Condition τ)) (type : τ) : Bool :=
  match find cs type with
  | some c => c.status
  | none => false

theorem find_set_self (c : Condition τ) (cs : List (Condition τ)) :
    find (set c cs) c.type = some c := by
  induction cs with
  | nil => simp [set, find]
  | cons d rest ih =>
    unfold set
    by_cases hd : d.type = c.type
    · simp [hd, find]
    · rw [if_neg hd]
      simpa [find, hd] using ih

theorem find_set_of_ne {c : Condition τ} {type : τ} (h : type ≠ c.type) (cs : List (Condition τ)) :
    find (set c cs) type = find cs type := by
  induction cs with
  | nil => simp [set, find, Ne.symm h]
  | cons d rest ih =>
    unfold set
    by_cases hd : d.type = c.type
    · simp [hd, find, Ne.symm h]
    · rw [if_neg hd]
      by_cases ht : d.type = type
      · simp [find, ht]
      · simpa [find, ht] using ih

/-- Setting one condition leaves the others as they are. -/
theorem isTrue_set (c : Condition τ) (cs : List (Condition τ)) (type : τ) :
    isTrue (set c cs) type = if type = c.type then c.status else isTrue cs type := by
  unfold isTrue
  by_cases h : type = c.type
  · rw [if_pos h, h, find_set_self]
  · rw [if_neg h, find_set_of_ne h]

end Condition

end ValkeyOperator

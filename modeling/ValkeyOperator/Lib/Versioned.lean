import ValkeyOperator.Lib.Action

/-! One object of an API server with optimistic concurrency.

Every write gives the object a fresh version. A create needs the object to be
absent, an update to be based on the stored version, and a patch without a version
only that the object exists. A copy read earlier is `Seen`: it is the stored object
for as long as the version has not moved. -/

namespace ValkeyOperator

structure Versioned (α : Type) where
  object : Option (α × Nat)
  next : Nat
  fresh : ∀ x v, object = some (x, v) → v < next

inductive WriteReply where
  | ok
  | alreadyExists
  | conflict
  | notFound
  | failed (e : Err)
deriving DecidableEq

namespace Versioned

variable {α : Type}

/-- There is no object yet. -/
def absent : Versioned α := { object := none, next := 0, fresh := nofun }

def stored (s : Versioned α) : Option α := s.object.map Prod.fst

/-- The object with new content and a fresh version. -/
def write (s : Versioned α) (x : α) : Versioned α where
  object := some (x, s.next)
  next := s.next + 1
  fresh _ _ h := by cases h; exact Nat.lt_succ_self _

/-- The object is gone; its versions are not used again. -/
def remove (s : Versioned α) : Versioned α := { object := none, next := s.next, fresh := nofun }

def create (s : Versioned α) (x : α) : WriteReply × Versioned α :=
  match s.object with
  | some _ => (.alreadyExists, s)
  | none => (.ok, s.write x)

def update (s : Versioned α) (x : α) (version : Nat) : WriteReply × Versioned α :=
  match s.object with
  | none => (.notFound, s)
  | some (_, v) => if v = version then (.ok, s.write x) else (.conflict, s)

def patch (s : Versioned α) (f : α → α) : WriteReply × Versioned α :=
  match s.object with
  | none => (.notFound, s)
  | some (x, _) => (.ok, s.write (f x))

/-- The copy was read at that version, and the version still stands for it. -/
def Seen (s : Versioned α) (copy : α × Nat) : Prop :=
  copy.2 < s.next ∧ ∀ x, s.object = some (x, copy.2) → x = copy.1

@[simp] theorem stored_write (s : Versioned α) (x : α) : (s.write x).stored = some x := rfl

theorem seen_object {s : Versioned α} {copy : α × Nat} (h : s.object = some copy) : s.Seen copy := by
  refine ⟨s.fresh _ _ h, fun x hx => ?_⟩
  rw [h] at hx
  exact (congrArg Prod.fst (Option.some.inj hx)).symm

/-- A write takes a version nobody has seen. -/
theorem Seen.write {s : Versioned α} {copy : α × Nat} (h : s.Seen copy) (x : α) :
    (s.write x).Seen copy := by
  refine ⟨Nat.lt_succ_of_lt h.1, fun y hy => ?_⟩
  have hversion : s.next = copy.2 := congrArg Prod.snd (Option.some.inj hy)
  exact absurd h.1 (by omega)

theorem Seen.remove {s : Versioned α} {copy : α × Nat} (h : s.Seen copy) : s.remove.Seen copy :=
  ⟨h.1, nofun⟩

theorem create_cases (s : Versioned α) (x : α) :
    (s.create x).2 = s ∨ s.stored = none ∧ (s.create x).2 = s.write x := by
  unfold create stored
  cases s.object with
  | none => exact .inr ⟨rfl, rfl⟩
  | some _ => exact .inl rfl

/-- An update that changes anything replaces exactly the copy it is based on. -/
theorem Seen.update_cases {s : Versioned α} {c : α} {v : Nat} (h : s.Seen (c, v)) (x : α) :
    (s.update x v).2 = s ∨ s.stored = some c ∧ (s.update x v).2 = s.write x := by
  unfold update stored
  cases ho : s.object with
  | none => exact .inl rfl
  | some p =>
    obtain ⟨y, u⟩ := p
    by_cases hu : u = v
    · subst hu
      exact .inr ⟨by simp [h.2 y ho], by simp⟩
    · exact .inl (by simp [hu])

theorem patch_cases (s : Versioned α) (f : α → α) :
    (s.patch f).2 = s ∨ ∃ x, s.stored = some x ∧ (s.patch f).2 = s.write (f x) := by
  unfold patch stored
  cases s.object with
  | none => exact .inl rfl
  | some p => exact .inr ⟨p.1, rfl, rfl⟩

end Versioned

end ValkeyOperator

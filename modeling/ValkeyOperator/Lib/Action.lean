import ValkeyOperator.Lib.Text

/-! Fallible actions on a world, and two ways to reason about them.

An action keeps the world it reached when it fails, so effects made before an
error stay visible. `Returns` inverts a successful run step by step; `Keeps`
follows a property of the world through every run, whether it succeeds or not. -/

namespace ValkeyOperator
open Text

/-- An error value: its text, and whether the missing-object sentinel is in its
chain. -/
structure Err where
  msg : Str
  notExist : Bool := false
deriving DecidableEq

/-- Wrap an error behind `context: `, keeping what it can be matched against. -/
def Err.wrap (context : Str) (e : Err) : Err :=
  { e with msg := context ++ ": " ++ e.msg }

abbrev Action (W : Type) := EStateM Err W

namespace Action

variable {W α β : Type}

/-- The world an action leaves behind, on success and on failure. -/
def after (a : Action W α) (w : W) : W :=
  match a w with
  | .ok _ w' => w'
  | .error _ w' => w'

/-- The value or the error an action reports. -/
def outcome (a : Action W α) (w : W) : Except Err α :=
  match a w with
  | .ok x _ => .ok x
  | .error e _ => .error e

/-- Rewrite the error of a failing action; its effects are untouched. -/
def mapErr (f : Err → Err) (a : Action W α) : Action W α := fun w =>
  match a w with
  | .ok x w' => .ok x w'
  | .error e w' => .error (f e) w'

/-- Go on with the value of an action, or with its error; its effects stay. -/
def handle (a : Action W α) (next : α → Action W β) (recover : Err → Action W β) :
    Action W β := fun w =>
  match a w with
  | .ok x w' => next x w'
  | .error e w' => recover e w'

@[simp] theorem after_mapErr (f : Err → Err) (a : Action W α) (w : W) :
    (mapErr f a).after w = a.after w := by
  unfold mapErr after
  dsimp only
  cases a w <;> rfl

@[simp] theorem after_bind_pure (a : Action W α) (f : α → β) (w : W) :
    (a >>= fun x => Pure.pure (f x)).after w = a.after w := by
  change after (EStateM.bind a fun x => Pure.pure (f x)) w = _
  unfold after EStateM.bind
  cases a w <;> rfl

def Returns (a : Action W α) (w : W) (x : α) (w' : W) : Prop := a w = .ok x w'

theorem Returns.pure {x y : α} {w w' : W} (h : Returns (Pure.pure x : Action W α) w y w') :
    y = x ∧ w' = w := by
  cases h; exact ⟨rfl, rfl⟩

theorem Returns.bind {a : Action W α} {f : α → Action W β} {w w' : W} {y : β}
    (h : Returns (a >>= f) w y w') : ∃ x v, Returns a w x v ∧ Returns (f x) v y w' := by
  change EStateM.bind a f w = _ at h
  unfold EStateM.bind at h
  split at h
  · exact ⟨_, _, ‹_›, h⟩
  · cases h

theorem Returns.of_outcome {a : Action W α} {w : W} {x : α} (h : a.outcome w = .ok x) :
    ∃ w', Returns a w x w' := by
  unfold outcome at h
  split at h
  · cases h
    exact ⟨_, ‹_›⟩
  · cases h

theorem Returns.mapErr {f : Err → Err} {a : Action W α} {w w' : W} {x : α}
    (h : Returns (Action.mapErr f a) w x w') : Returns a w x w' := by
  unfold Returns Action.mapErr at h
  split at h
  · cases h; assumption
  · cases h

theorem Returns.not_throw {e : Err} {w w' : W} {x : α} :
    ¬ Returns (throw e : Action W α) w x w' := fun h => nomatch h

theorem Returns.after_eq {a : Action W α} {w w' : W} {x : α} (h : Returns a w x w') :
    a.after w = w' := by
  unfold Returns at h
  simp [after, h]

theorem Returns.under_mapErr {a : Action W α} {w w' : W} {x : α} (h : Returns a w x w')
    (f : Err → Err) : Returns (Action.mapErr f a) w x w' := by
  unfold Returns at h ⊢
  simp [Action.mapErr, h]

/-- A step that returns is followed by the rest of the program. -/
theorem bind_ok {a : Action W α} {w v : W} {x : α} (h : a w = .ok x v) (f : α → Action W β) :
    (a >>= f) w = f x v := by
  change EStateM.bind a f w = _
  simp [EStateM.bind, h]

theorem Returns.then {a : Action W α} {f : α → Action W β} {w v w' : W} {x : α} {y : β}
    (h : Returns a w x v) (h' : Returns (f x) v y w') : Returns (a >>= f) w y w' :=
  (bind_ok h f).trans h'

theorem Returns.then_pure {a : Action W α} {w v : W} {x : α} (h : Returns a w x v)
    (f : α → β) : Returns (a >>= fun y => Pure.pure (f y)) w (f x) v := h.then rfl

theorem mapErr_error {a : Action W α} {w w' : W} {e : Err} (h : a w = .error e w')
    (f : Err → Err) : Action.mapErr f a w = .error (f e) w' := by
  simp [Action.mapErr, h]

/-- A step that fails ends the program. -/
theorem bind_error {a : Action W α} {w w' : W} {e : Err} (h : a w = .error e w')
    (f : α → Action W β) : (a >>= f) w = .error e w' := by
  change EStateM.bind a f w = _
  simp [EStateM.bind, h]

theorem Returns.then_error {a : Action W α} {f : α → Action W β} {w v w' : W} {x : α} {e : Err}
    (h : Returns a w x v) (h' : f x v = .error e w') : (a >>= f) w = .error e w' :=
  (bind_ok h f).trans h'

/-- A step that returns hands its world and value to the rest of the program. -/
theorem Returns.after_bind {a : Action W α} {w v : W} {x : α} (h : Returns a w x v)
    (f : α → Action W β) : (a >>= f).after w = (f x).after v := by
  unfold after
  rw [bind_ok h f]

theorem after_get_bind (f : W → Action W β) (w : W) :
    ((MonadState.get : Action W W) >>= f).after w = (f w).after w := rfl

theorem after_bind_error {a : Action W α} {w w' : W} {e : Err} (h : a w = .error e w')
    (f : α → Action W β) : (a >>= f).after w = w' := by
  unfold after
  rw [bind_error h f]

theorem after_handle (a : Action W α) (next : α → Action W β) (recover : Err → Action W β) (w : W) :
    (a.handle next recover).after w =
      match a w with
      | .ok x v => (next x).after v
      | .error e v => (recover e).after v := by
  unfold after Action.handle
  cases a w <;> rfl

theorem after_handle_ok {a : Action W α} {w v : W} {x : α} (h : a w = .ok x v)
    (next : α → Action W β) (recover : Err → Action W β) :
    (a.handle next recover).after w = (next x).after v := by
  rw [after_handle, h]

theorem after_handle_error {a : Action W α} {w v : W} {e : Err} (h : a w = .error e v)
    (next : α → Action W β) (recover : Err → Action W β) :
    (a.handle next recover).after w = (recover e).after v := by
  rw [after_handle, h]

/-! ## Properties kept by every run -/

/-- Every run of `a` from a world with `P` ends in a world with `P`, and a value
it returns satisfies `Q`. -/
def Keeps (P : W → Prop) (a : Action W α) (Q : α → Prop) : Prop :=
  ∀ w, P w → P (a.after w) ∧ ∀ x, a.outcome w = .ok x → Q x

theorem Keeps.pure {P : W → Prop} {Q : α → Prop} {x : α} (h : Q x) :
    Keeps P (Pure.pure x : Action W α) Q := by
  intro w hw
  exact ⟨hw, fun y hy => by cases hy; exact h⟩

theorem Keeps.throw {P : W → Prop} {Q : α → Prop} (e : Err) :
    Keeps P (throw e : Action W α) Q := fun _ hw => ⟨hw, fun _ hy => nomatch hy⟩

theorem Keeps.get {P : W → Prop} : Keeps P (MonadState.get : Action W W) P := by
  intro w hw
  exact ⟨hw, fun v hv => by cases hv; exact hw⟩

theorem Keeps.set {P : W → Prop} {w : W} (h : P w) :
    Keeps P (MonadStateOf.set w : Action W PUnit) fun _ => True :=
  fun _ _ => ⟨h, fun _ _ => trivial⟩

theorem Keeps.bind {P : W → Prop} {Q : α → Prop} {R : β → Prop} {a : Action W α}
    {f : α → Action W β} (ha : Keeps P a Q) (hf : ∀ x, Q x → Keeps P (f x) R) :
    Keeps P (a >>= f) R := by
  intro w hw
  obtain ⟨hp, hq⟩ := ha w hw
  change P (after (EStateM.bind a f) w) ∧ ∀ y, outcome (EStateM.bind a f) w = .ok y → R y
  unfold after at hp
  unfold outcome at hq
  unfold after outcome EStateM.bind
  cases hr : a w with
  | ok x v =>
    rw [hr] at hp hq
    exact hf x (hq x rfl) v hp
  | error e v =>
    rw [hr] at hp
    exact ⟨hp, fun y hy => nomatch hy⟩

theorem Keeps.handle {P : W → Prop} {Q : α → Prop} {R : β → Prop} {a : Action W α}
    {next : α → Action W β} {recover : Err → Action W β} (ha : Keeps P a Q)
    (hnext : ∀ x, Q x → Keeps P (next x) R) (hrecover : ∀ e, Keeps P (recover e) R) :
    Keeps P (Action.handle a next recover) R := by
  intro w hw
  obtain ⟨hp, hq⟩ := ha w hw
  unfold after at hp
  unfold outcome at hq
  unfold after outcome Action.handle
  cases hr : a w with
  | ok x v =>
    rw [hr] at hp hq
    exact hnext x (hq x rfl) v hp
  | error e v =>
    rw [hr] at hp
    exact hrecover e v hp

theorem Keeps.mapErr {P : W → Prop} {Q : α → Prop} {f : Err → Err} {a : Action W α}
    (ha : Keeps P a Q) : Keeps P (Action.mapErr f a) Q := by
  intro w hw
  obtain ⟨hp, hq⟩ := ha w hw
  unfold after at hp
  unfold outcome at hq
  unfold after outcome Action.mapErr
  cases hr : a w with
  | ok x v => rw [hr] at hp hq; exact ⟨hp, hq⟩
  | error e v => rw [hr] at hp; exact ⟨hp, fun y hy => nomatch hy⟩

theorem Keeps.forM {P : W → Prop} {f : α → Action W PUnit} {xs : List α}
    (hf : ∀ x ∈ xs, Keeps P (f x) fun _ => True) : Keeps P (xs.forM f) fun _ => True := by
  induction xs with
  | nil => exact Keeps.pure trivial
  | cons x xs ih =>
    change Keeps P (f x >>= fun _ => xs.forM f) fun _ => True
    exact (hf x (by simp)).bind fun _ _ => ih fun y hy => hf y (by simp [hy])

theorem Keeps.after {P : W → Prop} {Q : α → Prop} {a : Action W α} (ha : Keeps P a Q) {w : W}
    (hw : P w) : P (a.after w) := (ha w hw).1

end Action

end ValkeyOperator

import ValkeyOperator.Lib.Calls

/-! Pre- and postconditions of actions.

A triple says what holds after an action that returns and what holds after one that
fails: an error does not undo what was done before it. The calls of an API server
are reads, which may fail, and writes, which may fail before or after they are
carried out. -/

namespace ValkeyOperator.Action

variable {W α β : Type}

/-- From a world with `P`, the action returns with `Q` or fails with `E`. -/
def Triple (P : W → Prop) (a : Action W α) (Q : α → W → Prop) (E : W → Prop) : Prop :=
  ∀ w, P w → match a w with
    | .ok x w' => Q x w'
    | .error _ w' => E w'

/-- What held before the action holds after it, however it ends. -/
abbrev Maintains (P : W → Prop) (a : Action W α) : Prop := Triple P a (fun _ => P) P

/-! ## The calls of a server -/

def read (fault : Option Err) (view : W → α) : Action W α := fun w =>
  match fault with
  | none => .ok (view w) w
  | some e => .error e w

def write (fault : Option Fault) (effect : W → W) : Action W Unit := fun w =>
  match fault with
  | none => .ok () (effect w)
  | some (.refused e) => .error e w
  | some (.lost e) => .error e (effect w)

/-! ## Rules -/

namespace Triple

variable {P P' : W → Prop} {a : Action W α} {Q Q' : α → W → Prop} {E E' : W → Prop}

theorem pure {x : α} (h : ∀ w, P w → Q x w) : Triple P (Pure.pure x) Q E := h

theorem throw {e : Err} (h : ∀ w, P w → E w) : Triple P (MonadExcept.throw e : Action W α) Q E := h

theorem modify {f : W → W} {Q : Unit → W → Prop} (h : ∀ w, P w → Q () (f w)) :
    Triple P (modify f : Action W Unit) Q E := h

theorem get : Triple P (MonadState.get : Action W W) (fun x w => P w ∧ x = w) E :=
  fun _ hw => ⟨hw, rfl⟩

theorem pre (ha : Triple P' a Q E) (h : ∀ w, P w → P' w) : Triple P a Q E :=
  fun w hw => ha w (h w hw)

theorem post (ha : Triple P a Q' E') (hQ : ∀ x w, Q' x w → Q x w) (hE : ∀ w, E' w → E w) :
    Triple P a Q E := by
  intro w hw
  have h := ha w hw
  cases hr : a w with
  | ok x w' =>
    rw [hr] at h
    exact hQ x w' h
  | error e w' =>
    rw [hr] at h
    exact hE w' h

/-- What is known of a fixed world may be used as a fact. -/
theorem fixed {w : W} {C : W → Prop} (ha : C w → Triple (· = w) a Q E) :
    Triple (fun v => v = w ∧ C v) a Q E := by
  rintro v ⟨rfl, hc⟩
  exact ha hc v rfl

theorem failing (ha : Triple P a Q E') (hE : ∀ w, E' w → E w) : Triple P a Q E :=
  ha.post (fun _ _ h => h) hE

theorem bind {f : α → Action W β} {R : β → W → Prop} (ha : Triple P a Q E)
    (hf : ∀ x, Triple (Q x) (f x) R E) : Triple P (a >>= f) R E := by
  intro w hw
  have h := ha w hw
  change match EStateM.bind a f w with
    | .ok y w' => R y w'
    | .error _ w' => E w'
  unfold EStateM.bind
  cases hr : a w with
  | ok x w' =>
    rw [hr] at h
    exact hf x w' h
  | error e w' =>
    rw [hr] at h
    exact h

theorem handle {next : α → Action W β} {recover : Err → Action W β} {R : β → W → Prop}
    (ha : Triple P a Q E) (hnext : ∀ x, Triple (Q x) (next x) R E')
    (hrecover : ∀ e, Triple E (recover e) R E') : Triple P (a.handle next recover) R E' := by
  intro w hw
  have h := ha w hw
  unfold Action.handle
  cases hr : a w with
  | ok x w' =>
    rw [hr] at h
    exact hnext x w' h
  | error e w' =>
    rw [hr] at h
    exact hrecover e w' h

theorem mapErr {f : Err → Err} (ha : Triple P a Q E) : Triple P (a.mapErr f) Q E := by
  intro w hw
  have h := ha w hw
  unfold Action.mapErr
  cases hr : a w with
  | ok x w' =>
    rw [hr] at h
    exact h
  | error e w' =>
    rw [hr] at h
    exact h

/-- A read returns what it looks at and changes nothing. -/
theorem read {fault : Option Err} {view : W → α} (hfail : ∀ w, P w → fault ≠ none → E w) :
    Triple P (Action.read fault view) (fun x w => P w ∧ x = view w) E := by
  intro w hw
  cases fault with
  | none => exact ⟨hw, rfl⟩
  | some e => exact hfail w hw (by simp)

/-- A write that fails is made or not. -/
theorem write {fault : Option Fault} {effect : W → W} {Q : Unit → W → Prop}
    (hok : ∀ w, P w → Q () (effect w)) (hrefused : ∀ w, P w → E w)
    (hlost : ∀ e w, fault = some (.lost e) → P w → E (effect w)) :
    Triple P (Action.write fault effect) Q E := by
  intro w hw
  match fault, hlost with
  | none, _ => exact hok w hw
  | some (.refused e), _ => exact hrefused w hw
  | some (.lost e), hlost => exact hlost e w rfl hw

theorem returned (ha : Triple P a Q E) {w : W} {x : α} (hw : P w) (hx : a.outcome w = .ok x) :
    Q x (a.after w) := by
  obtain ⟨w', hret⟩ := Returns.of_outcome hx
  have h := ha w hw
  rw [show a w = .ok x w' from hret] at h
  rwa [hret.after_eq]

theorem after (ha : Triple P a (fun _ => E) E) {w : W} (hw : P w) : E (a.after w) := by
  have h := ha w hw
  unfold Action.after
  cases hr : a w with
  | ok x w' =>
    rw [hr] at h
    exact h
  | error e w' =>
    rw [hr] at h
    exact h

/-- A property that is followed through every run. -/
theorem of_keeps {Q : α → Prop} (ha : Keeps P a Q) : Maintains P a := by
  intro w hw
  have h := (ha w hw).1
  unfold Action.after at h
  cases hr : a w with
  | ok x w' =>
    rw [hr] at h
    exact h
  | error e w' =>
    rw [hr] at h
    exact h

theorem keeps (ha : Maintains P a) : Keeps P a fun _ => True :=
  fun _ hw => ⟨ha.after hw, fun _ _ => trivial⟩

end Triple

/-- A write breaks nothing that its effect does not break, whether it is made or not. -/
theorem Keeps.write {P : W → Prop} {fault : Option Fault} {effect : W → W}
    (h : ∀ w, P w → P (effect w)) : Keeps P (Action.write fault effect) fun _ => True :=
  (Triple.write (Q := fun _ => P) h (fun _ hw => hw) fun _ w _ hw => h w hw).keeps

end ValkeyOperator.Action

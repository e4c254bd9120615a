import ValkeyOperator.Lib.Action

/-! Actions that send commands over an unreliable wire.

A wire keeps what was sent and a script of the replies to come; a command that
fails was sent all the same, since its effect is unknown. An action `Issues` a
list of commands when every run sends them in order, stopping early only by
failing: over all scripts it may send exactly the commands of that list
(`Issues.forall_sent_iff`). A run that starts with nothing sent stays `InStep`
with its script, so that a refused command is found beside the reply to it. -/

namespace ValkeyOperator

variable {C α β : Type}

structure Wire (C : Type) where
  sent : List C := []
  /-- replies still to come, `none` for success; afterwards all succeed -/
  replies : List (Option Err) := []

namespace Wire
open ValkeyOperator.Action

def send (c : C) : Action (Wire C) Unit := fun w =>
  match w.replies with
  | [] => .ok () { w with sent := w.sent ++ [c] }
  | none :: rest => .ok () ⟨w.sent ++ [c], rest⟩
  | some e :: rest => .error e ⟨w.sent ++ [c], rest⟩

/-- The commands that were answered with success, each by its own reply. -/
def acked : List C → List (Option Err) → List C
  | [], _ => []
  | c :: cs, [] => c :: acked cs []
  | c :: cs, none :: rest => c :: acked cs rest
  | _ :: cs, some _ :: rest => acked cs rest

/-- Every run of `a` returns `x` after sending `cs`, or fails after sending the
beginning of `cs`; without failing replies it returns. -/
structure Issues (a : Action (Wire C) α) (x : α) (cs : List C) : Prop where
  all : ∀ sent, Returns a ⟨sent, []⟩ x ⟨sent ++ cs, []⟩
  step : ∀ w, (∃ rs, Returns a w x ⟨w.sent ++ cs, rs⟩) ∨
    ∃ e pre rs, pre <+: cs ∧ a w = .error e ⟨w.sent ++ pre, rs⟩

theorem Issues.pure (x : α) : Issues (Pure.pure x : Action (Wire C) α) x [] where
  all sent := by rw [List.append_nil]; rfl
  step w := by rw [List.append_nil]; exact .inl ⟨w.replies, rfl⟩

theorem Issues.send (c : C) : Issues (Wire.send c) () [c] where
  all _ := rfl
  step w := by
    obtain ⟨sent, replies⟩ := w
    match replies with
    | [] => exact .inl ⟨[], rfl⟩
    | none :: rest => exact .inl ⟨rest, rfl⟩
    | some e :: rest => exact .inr ⟨e, [c], rest, List.prefix_rfl, rfl⟩

theorem Issues.mapErr {a : Action (Wire C) α} {x : α} {cs : List C} (h : Issues a x cs)
    (f : Err → Err) : Issues (Action.mapErr f a) x cs where
  all sent := (h.all sent).under_mapErr f
  step w := by
    rcases h.step w with ⟨rs, hr⟩ | ⟨e, pre, rs, hpre, hr⟩
    · exact .inl ⟨rs, hr.under_mapErr f⟩
    · exact .inr ⟨f e, pre, rs, hpre, by simp [Action.mapErr, hr]⟩

theorem Issues.bind {a : Action (Wire C) α} {f : α → Action (Wire C) β} {x : α} {y : β}
    {cs ds : List C} (ha : Issues a x cs) (hf : Issues (f x) y ds) :
    Issues (a >>= f) y (cs ++ ds) where
  all sent := by
    rw [← List.append_assoc]
    exact (ha.all sent).then (hf.all _)
  step w := by
    rcases ha.step w with ⟨rs, hr⟩ | ⟨e, pre, rs, hpre, hr⟩
    · rcases hf.step ⟨w.sent ++ cs, rs⟩ with ⟨rs', hr'⟩ | ⟨e, pre, rs', hpre, hr'⟩
      · rw [List.append_assoc] at hr'
        exact .inl ⟨rs', hr.then hr'⟩
      · rw [List.append_assoc] at hr'
        exact .inr ⟨e, cs ++ pre, rs', (List.prefix_append_right_inj cs).mpr hpre,
          hr.then_error hr'⟩
    · refine .inr ⟨e, pre, rs, hpre.trans (List.prefix_append _ _), ?_⟩
      change EStateM.bind a f w = _
      simp [EStateM.bind, hr]

/-- A command whose failure is passed over. -/
theorem Issues.send_then {c : C} {a : Action (Wire C) α} {x : α} {cs : List C}
    (h : Issues a x cs) : Issues ((Wire.send c).handle (fun _ => a) fun _ => a) x (c :: cs) := by
  have hrun : ∀ w : Wire C, (Wire.send c).handle (fun _ => a) (fun _ => a) w =
      a ⟨w.sent ++ [c], w.replies.tail⟩ := by
    rintro ⟨sent, replies⟩
    match replies with
    | [] => rfl
    | none :: rest => rfl
    | some e :: rest => rfl
  constructor
  · intro sent
    have hall := h.all (sent ++ [c])
    rw [List.append_assoc] at hall
    exact (hrun _).trans hall
  · intro w
    rw [hrun]
    rcases h.step ⟨w.sent ++ [c], w.replies.tail⟩ with ⟨rs, hr⟩ | ⟨e, pre, rs, hpre, hr⟩
    · rw [List.append_assoc] at hr
      exact .inl ⟨rs, (hrun w).trans hr⟩
    · rw [List.append_assoc] at hr
      exact .inr ⟨e, c :: pre, rs, (List.prefix_cons_inj c).mpr hpre, hr⟩

/-- A loop over `xs` sends what its steps send, one after the other. -/
theorem Issues.forM {f : β → Action (Wire C) PUnit} {g : β → List C} {xs : List β}
    (h : ∀ x ∈ xs, Issues (f x) ⟨⟩ (g x)) : Issues (xs.forM f) ⟨⟩ (xs.flatMap g) := by
  induction xs with
  | nil => exact Issues.pure _
  | cons x xs ih =>
    rw [List.flatMap_cons]
    exact (h x (by simp)).bind (ih fun y hy => h y (by simp [hy]))

/-- What holds of everything that may be sent holds of the issued commands, and
conversely. -/
theorem Issues.forall_sent_iff {a : Action (Wire C) α} {x : α} {cs : List C}
    (h : Issues a x cs) {Q : C → Prop} :
    (∀ replies, ∀ c ∈ (a.after ⟨[], replies⟩).sent, Q c) ↔ ∀ c ∈ cs, Q c := by
  constructor
  · intro hall c hc
    refine hall [] c ?_
    rw [(h.all []).after_eq]
    exact hc
  · intro hall replies c hc
    rcases h.step ⟨[], replies⟩ with ⟨rs, hr⟩ | ⟨e, pre, rs, hpre, hr⟩
    · rw [hr.after_eq] at hc
      exact hall c hc
    · simp only [after, hr, List.nil_append] at hc
      exact hall c (hpre.mem hc)

/-! ## Commands and their replies -/

/-- The replies still to come are those behind as many as were sent. -/
def InStep (replies : List (Option Err)) (w : Wire C) : Prop :=
  w.replies = replies.drop w.sent.length

/-- Command `c` was answered with the error `e`. -/
def Refused (replies : List (Option Err)) (w : Wire C) (c : C) (e : Err) : Prop :=
  ∃ i : Nat, w.sent[i]? = some c ∧ replies[i]? = some (some e)

/-- A command is added to what was sent, and its reply taken from the script. -/
theorem after_send (c : C) (w : Wire C) :
    (send c).after w = ⟨w.sent ++ [c], w.replies.tail⟩ := by
  obtain ⟨sent, replies⟩ := w
  cases replies with
  | nil => rfl
  | cons r rest => cases r <;> rfl

theorem keeps_of_sent {P : Wire C → Prop} {a : Action (Wire C) Unit}
    (h : ∀ w, P w → P (a.after w)) : Keeps P a fun _ => True :=
  fun w hw => ⟨h w hw, fun _ _ => trivial⟩

theorem keeps_inStep_send (replies : List (Option Err)) (c : C) :
    Keeps (InStep replies) (send c) fun _ => True := by
  refine keeps_of_sent fun w hw => ?_
  rw [after_send]
  unfold InStep at hw ⊢
  dsimp only
  rw [hw, List.tail_drop, List.length_append, List.length_singleton]

theorem keeps_refused_send (replies : List (Option Err)) (c' : C) (e : Err) (c : C) :
    Keeps (fun w => Refused replies w c' e) (send c) fun _ => True := by
  refine keeps_of_sent fun w hw => ?_
  obtain ⟨i, hc, hr⟩ := hw
  rw [after_send]
  exact ⟨i, List.getElem?_append_left (List.getElem?_eq_some_iff.mp hc).1 ▸ hc, hr⟩

/-- A command that fails was answered with that error. -/
theorem refused_of_error {replies : List (Option Err)} {c : C} {w w' : Wire C} {e : Err}
    (hw : InStep replies w) (h : send c w = .error e w') : Refused replies w' c e := by
  obtain ⟨sent, rs⟩ := w
  unfold InStep at hw
  dsimp only at hw
  subst hw
  unfold send at h
  dsimp only at h
  split at h
  · cases h
  · cases h
  · rename_i rest hdrop
    cases h
    refine ⟨sent.length, by simp, ?_⟩
    rw [← Nat.add_zero sent.length, ← List.getElem?_drop, hdrop]
    rfl

end Wire

end ValkeyOperator

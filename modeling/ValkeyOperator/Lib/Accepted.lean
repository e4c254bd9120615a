import ValkeyOperator.Lib.Triple
import ValkeyOperator.Lib.Wire

/-! What is accepted of the commands sent over a wire.

Each command takes one reply from the script, so the commands that an action adds can be
matched with the replies that stood before it. `Adds` follows what holds of the accepted
ones, and the accepted ones of a sequence are those of its parts. -/

namespace ValkeyOperator.Wire
open ValkeyOperator.Action

variable {C α β : Type}

theorem acked_append (cs ds : List C) (rs : List (Option Err)) :
    acked (cs ++ ds) rs = acked cs rs ++ acked ds (rs.drop cs.length) := by
  induction cs generalizing rs with
  | nil => rfl
  | cons c cs ih =>
    match rs with
    | [] =>
      have h := ih []
      rw [List.drop_nil] at h ⊢
      exact congrArg (c :: ·) h
    | none :: rest => exact congrArg (c :: ·) (ih rest)
    | some e :: rest => exact ih rest

/-- Commands were sent after `w`, and `Q` holds of those that were accepted. -/
def Adds (w : Wire C) (Q : List C → Prop) (v : Wire C) : Prop :=
  ∃ cs, v = ⟨w.sent ++ cs, w.replies.drop cs.length⟩ ∧ Q (acked cs w.replies)

theorem Adds.refl {w : Wire C} {Q : List C → Prop} (h : Q []) : Adds w Q w :=
  ⟨[], by simp, h⟩

theorem Adds.mono {w v : Wire C} {Q Q' : List C → Prop} (h : Adds w Q v) (hQ : ∀ l, Q l → Q' l) :
    Adds w Q' v := by
  obtain ⟨cs, hv, hcs⟩ := h
  exact ⟨cs, hv, hQ _ hcs⟩

/-- A command is accepted and added, or it fails. -/
theorem triple_send {w : Wire C} {Q Q' : List C → Prop} {c : C} (h : ∀ l, Q l → Q' (l ++ [c])) :
    Triple (Adds w Q) (send c) (fun _ => Adds w Q') (Adds w Q) := by
  rintro _ ⟨cs, rfl, hcs⟩
  have hdrop : w.replies.drop (cs ++ [c]).length = (w.replies.drop cs.length).tail := by
    rw [List.length_append, List.length_singleton, List.tail_drop]
  have hacked := acked_append cs [c] w.replies
  unfold send
  dsimp only
  match hr : w.replies.drop cs.length with
  | [] =>
    rw [hr] at hdrop hacked
    refine ⟨cs ++ [c], ?_, hacked ▸ h _ hcs⟩
    rw [hdrop, List.append_assoc]
    rfl
  | none :: rest =>
    rw [hr] at hdrop hacked
    refine ⟨cs ++ [c], ?_, hacked ▸ h _ hcs⟩
    rw [hdrop, List.append_assoc]
    rfl
  | some e :: rest =>
    rw [hr] at hdrop hacked
    refine ⟨cs ++ [c], ?_, ?_⟩
    · rw [hdrop, List.append_assoc]
      rfl
    · rw [hacked]
      exact (List.append_nil _).symm ▸ hcs

/-- What every command preserves once it is accepted. -/
theorem keeps_adds_send {w : Wire C} {Q : List C → Prop} {c : C} (h : ∀ l, Q l → Q (l ++ [c])) :
    Keeps (Adds w Q) (send c) fun _ => True := (triple_send h).keeps

/-- The commands that an action sends and that are accepted. -/
def accepted (a : Action (Wire C) α) (w : Wire C) : List C :=
  acked ((a.after w).sent.drop w.sent.length) w.replies

theorem accepted_of_after {a : Action (Wire C) α} {w : Wire C} {cs : List C}
    {rs : List (Option Err)} (h : a.after w = ⟨w.sent ++ cs, rs⟩) :
    accepted a w = acked cs w.replies := by
  rw [accepted, h, List.drop_left]

theorem Adds.accepted {a : Action (Wire C) α} {w : Wire C} {Q : List C → Prop}
    (h : Adds w Q (a.after w)) : Q (accepted a w) := by
  obtain ⟨cs, hv, hcs⟩ := h
  rw [accepted_of_after hv]
  exact hcs

/-- An action that does nothing to the wire but to send. -/
def Sends (a : Action (Wire C) α) : Prop := ∀ w, Adds w (fun _ => True) (a.after w)

theorem Sends.pure (x : α) : Sends (Pure.pure x : Action (Wire C) α) := fun _ => .refl trivial

theorem accepted_pure (x : α) (w : Wire C) : accepted (Pure.pure x) w = [] := by
  have hafter : (Pure.pure x : Action (Wire C) α).after w = ⟨w.sent ++ [], w.replies⟩ :=
    congrArg (Wire.mk · w.replies) (List.append_nil _).symm
  exact accepted_of_after hafter

section Handle

variable {a : Action (Wire C) α} {next : α → Action (Wire C) β} {recover : Err → Action (Wire C) β}

theorem after_then {w v : Wire C} {b : Action (Wire C) β} (ha : Adds w (fun _ => True) v)
    (hb : Sends b) : ∃ cs ds, v = ⟨w.sent ++ cs, w.replies.drop cs.length⟩ ∧
      b.after v = ⟨w.sent ++ (cs ++ ds), w.replies.drop (cs ++ ds).length⟩ ∧
      Wire.accepted b v = acked ds (w.replies.drop cs.length) := by
  obtain ⟨cs, rfl, -⟩ := ha
  obtain ⟨ds, hds, -⟩ := hb ⟨w.sent ++ cs, w.replies.drop cs.length⟩
  refine ⟨cs, ds, rfl, ?_, accepted_of_after hds⟩
  rw [hds, List.append_assoc, List.drop_drop, List.length_append]

theorem Sends.handle (ha : Sends a) (hnext : ∀ x, Sends (next x))
    (hrecover : ∀ e, Sends (recover e)) : Sends (a.handle next recover) := by
  intro w
  have hw := ha w
  rw [after_handle]
  unfold Action.after at hw
  cases hr : a w with
  | ok x v =>
    rw [hr] at hw
    obtain ⟨cs, ds, -, hds, -⟩ := after_then hw (hnext x)
    exact ⟨cs ++ ds, hds, trivial⟩
  | error e v =>
    rw [hr] at hw
    obtain ⟨cs, ds, -, hds, -⟩ := after_then hw (hrecover e)
    exact ⟨cs ++ ds, hds, trivial⟩

theorem accepted_then {w v : Wire C} {b c : Action (Wire C) β}
    (ha : Sends a) (hv : a.after w = v) (hb : Sends b) (hc : c.after w = b.after v) :
    accepted c w = accepted a w ++ accepted b v := by
  obtain ⟨cs, ds, hcs, hds, haccepted⟩ := after_then (hv ▸ ha w) hb
  rw [accepted_of_after (hc.trans hds), acked_append, accepted_of_after (hv.trans hcs), haccepted]

end Handle

end ValkeyOperator.Wire

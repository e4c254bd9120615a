import Mathlib.Logic.Relation

/-! Moves that take time.

A table is changed by moves. A move that has begun runs for a while and then takes effect
or is given up; meanwhile others may begin. A planner looks at the table, decides on one
move, and by the time it is begun the table may be another one. Two questions are answered
in general: what keeps running moves out of each other's way, and when the tables are those
of a planner whose moves take effect at once. -/

namespace ValkeyOperator.InFlight

/-- What moves do to a table, which of them can be made, and which must not run at once. -/
structure Transfers (T M : Type) where
  Sound : T → Prop
  Valid : T → M → Prop
  Applied : M → T → T → Prop
  Clash : M → M → Prop
  clash_symm : ∀ {m k}, Clash m k → Clash k m
  sound : ∀ {t t' m}, Sound t → Valid t m → Applied m t t' → Sound t'
  valid : ∀ {t t' m k}, Sound t → Valid t m → Applied m t t' → Valid t k → ¬ Clash m k → Valid t' k

/-- A table, the moves that run, and what the planner has seen of the table. -/
structure Flights (T M V : Type) where
  table : T
  running : List M
  view : V

/-- What a planner sees when it looks, what it may decide on, and the view it starts from. -/
structure Planner (T M V : Type) where
  sees : T → V → V → Prop
  plan : V → M → Prop
  blank : V

variable {T M V : Type}

/-- A planner looks, and begins a move it may decide on. A move begins only where it can be
made and clashes with none that runs. -/
inductive Step (F : Transfers T M) (P : Planner T M V) : Flights T M V → Flights T M V → Prop
  | look {t : T} {running : List M} {v v' : V} (h : P.sees t v v') :
      Step F P ⟨t, running, v⟩ ⟨t, running, v'⟩
  | begin {t : T} {running : List M} {v : V} {m : M} (hplan : P.plan v m)
      (hvalid : F.Valid t m) (hclear : ∀ k ∈ running, ¬ F.Clash k m) :
      Step F P ⟨t, running, v⟩ ⟨t, m :: running, P.blank⟩
  | finish {t t' : T} {before after : List M} {m : M} {v : V} (h : F.Applied m t t') :
      Step F P ⟨t, before ++ m :: after, v⟩ ⟨t', before ++ after, v⟩
  | abort {t : T} {before after : List M} {m : M} {v : V} :
      Step F P ⟨t, before ++ m :: after, v⟩ ⟨t, before ++ after, v⟩

variable {F : Transfers T M} {P : Planner T M V}

/-! ## Running moves do not meet -/

/-- Every running move can be made, and no two of them clash. -/
structure Steady (F : Transfers T M) (s : Flights T M V) : Prop where
  sound : F.Sound s.table
  valid : ∀ m ∈ s.running, F.Valid s.table m
  apart : s.running.Pairwise fun a b => ¬ F.Clash a b

theorem apart_of_append {before after : List M} {m : M}
    (h : (before ++ m :: after).Pairwise fun a b => ¬ F.Clash a b) :
    (before ++ after).Pairwise (fun a b => ¬ F.Clash a b) ∧
      ∀ k ∈ before ++ after, ¬ F.Clash m k := by
  obtain ⟨hbefore, hrest, hacross⟩ := List.pairwise_append.mp h
  obtain ⟨hm, hafter⟩ := List.pairwise_cons.mp hrest
  refine ⟨List.pairwise_append.mpr ⟨hbefore, hafter, fun a ha b hb => ?_⟩, fun k hk => ?_⟩
  · exact hacross a ha b (List.mem_cons_of_mem _ hb)
  · rcases List.mem_append.mp hk with hk | hk
    · exact fun hclash => hacross k hk m List.mem_cons_self (F.clash_symm hclash)
    · exact hm k hk

theorem mem_of_mem_append {before after : List M} {m k : M} (h : k ∈ before ++ after) :
    k ∈ before ++ m :: after := by
  rcases List.mem_append.mp h with h | h
  · exact List.mem_append_left _ h
  · exact List.mem_append_right _ (List.mem_cons_of_mem _ h)

theorem Steady.step {s s' : Flights T M V} (h : Steady F s) (hstep : Step F P s s') :
    Steady F s' := by
  cases hstep with
  | look hsees => exact ⟨h.sound, h.valid, h.apart⟩
  | begin hplan hvalid hclear =>
    refine ⟨h.sound, List.forall_mem_cons.mpr ⟨hvalid, h.valid⟩, ?_⟩
    exact List.pairwise_cons.mpr ⟨fun k hk hclash => hclear k hk (F.clash_symm hclash), h.apart⟩
  | @finish t t' before after m v happlied =>
    obtain ⟨hapart, hclear⟩ := apart_of_append h.apart
    have hm : F.Valid t m := h.valid m (List.mem_append_right _ List.mem_cons_self)
    refine ⟨F.sound h.sound hm happlied, fun k hk => ?_, hapart⟩
    exact F.valid h.sound hm happlied (h.valid k (mem_of_mem_append hk)) (hclear k hk)
  | abort =>
    exact ⟨h.sound, fun k hk => h.valid k (mem_of_mem_append hk), (apart_of_append h.apart).1⟩

/-! ## One move at a time -/

/-- Moves that a planner asks for and that take effect at once. -/
inductive Serial (best : T → Option M) (Applied : M → T → T → Prop) (start : T) :
    List M → T → Prop
  | start : Serial best Applied start [] start
  | move {moves : List M} {t t' : T} {m : M} (run : Serial best Applied start moves t)
      (planned : best t = some m) (applied : Applied m t t') :
      Serial best Applied start (moves ++ [m]) t'

/-- A planner that looks at a table decides on nothing but what the table asks for, a move
clashes with itself, and a move that has taken effect cannot be made again. -/
structure Deciding (F : Transfers T M) (P : Planner T M V) (best : T → Option M) : Prop where
  decides : ∀ {t v v' m}, F.Sound t → P.sees t v v' → P.plan v' m → best t = some m
  blank : ∀ m, ¬ P.plan P.blank m
  clash_self : ∀ m, F.Clash m m
  spent : ∀ {t t' m}, F.Sound t → F.Valid t m → best t = some m → F.Applied m t t' → ¬ F.Valid t' m

/-- At most one move runs, and it is the one the table asks for. A view is of this table, or
of the one before, whose move is spent. -/
structure Single (F : Transfers T M) (P : Planner T M V) (best : T → Option M) (start : T)
    (s : Flights T M V) : Prop where
  serial : ∃ moves, Serial best F.Applied start moves s.table
  one : s.running = [] ∨ ∃ m, s.running = [m] ∧ best s.table = some m
  view : (∀ m, P.plan s.view m → best s.table = some m) ∨
    s.running = [] ∧ ∀ m, P.plan s.view m → ¬ F.Valid s.table m

variable {best : T → Option M} {start : T}

theorem running_of_append {before after : List M} {m : M} {Q : M → Prop}
    (h : before ++ m :: after = [] ∨ ∃ k, before ++ m :: after = [k] ∧ Q k) :
    before ++ after = [] ∧ Q m := by
  rcases h with h | ⟨k, h, hk⟩
  · simp at h
  · cases before with
    | nil =>
      obtain ⟨rfl, rfl⟩ := List.cons.inj h
      exact ⟨rfl, hk⟩
    | cons b before => simp at h

theorem Single.step (D : Deciding F P best) {s s' : Flights T M V} (hsteady : Steady F s)
    (h : Single F P best start s) (hstep : Step F P s s') : Single F P best start s' := by
  cases hstep with
  | look hsees => exact ⟨h.serial, h.one, .inl fun m hm => D.decides hsteady.sound hsees hm⟩
  | @begin t running v m hplan hvalid hclear =>
    rcases h.view with hbest | ⟨-, hspent⟩
    · refine ⟨h.serial, .inr ⟨m, ?_, hbest m hplan⟩, .inl fun k hk => absurd hk (D.blank k)⟩
      rcases h.one with hnone | ⟨k, hk, hkbest⟩
      · exact congrArg (m :: ·) hnone
      · -- the move that runs is the same one, and begun twice it would clash
        obtain rfl : k = m := Option.some.inj (hkbest.symm.trans (hbest m hplan))
        refine absurd (D.clash_self k) (hclear k ?_)
        rw [show running = [k] from hk]
        exact List.mem_singleton_self k
    · exact absurd hvalid (hspent m hplan)
  | @finish t t' before after m v happlied =>
    obtain ⟨hrest, hbest⟩ := running_of_append h.one
    obtain ⟨moves, hserial⟩ := h.serial
    have hm : F.Valid t m := hsteady.valid m (List.mem_append_right _ List.mem_cons_self)
    refine ⟨⟨_, .move hserial hbest happlied⟩, .inl hrest, .inr ⟨hrest, fun k hk => ?_⟩⟩
    rcases h.view with hview | ⟨hnone, -⟩
    · obtain rfl : m = k := Option.some.inj (hbest.symm.trans (hview k hk))
      exact D.spent hsteady.sound hm hbest happlied
    · simp at hnone
  | abort =>
    obtain ⟨hrest, -⟩ := running_of_append h.one
    refine ⟨h.serial, .inl hrest, ?_⟩
    rcases h.view with hview | ⟨hnone, -⟩
    · exact .inl hview
    · simp at hnone

/-- However long moves take, the tables are those of the planner whose moves take effect at
once, and never does more than one move run. -/
theorem Single.run (D : Deciding F P best) {t : T} (ht : F.Sound t) {s : Flights T M V}
    (hrun : Relation.ReflTransGen (Step F P) ⟨t, [], P.blank⟩ s) :
    Steady F s ∧ Single F P best t s := by
  induction hrun with
  | refl =>
    exact ⟨⟨ht, nofun, .nil⟩, ⟨⟨[], .start⟩, .inl rfl, .inl fun m hm => absurd hm (D.blank m)⟩⟩
  | tail _ hstep ih => exact ⟨ih.1.step hstep, ih.2.step D ih.1 hstep⟩

end ValkeyOperator.InFlight

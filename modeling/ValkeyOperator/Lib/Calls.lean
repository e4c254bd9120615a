import Mathlib.Logic.Function.Basic
import Mathlib.Logic.Relation
import ValkeyOperator.Lib.Action

/-! Programs that make one call of a server at a time, run side by side.

A program is the tree of its calls. Several of them share a world: at every point
one program's next call is answered, a program that has finished starts another
one, or the world moves on by itself. What a program has learned from the answers
so far may go stale while others are served; a `Discipline` says what it still
knows and which calls that knowledge entitles it to. -/

namespace ValkeyOperator

inductive Calls (Req : Type) (Resp : Req → Type) (α : Type) where
  | done (value : α)
  | call (req : Req) (next : Resp req → Calls Req Resp α)

namespace Calls

variable {Req : Type} {Resp : Req → Type} {α β W : Type}

def bind : Calls Req Resp α → (α → Calls Req Resp β) → Calls Req Resp β
  | done a, f => f a
  | call r next, f => call r fun x => (next x).bind f

instance : Monad (Calls Req Resp) where
  pure := done
  bind := bind

/-- Make one call and return its answer. -/
def ask (r : Req) : Calls Req Resp (Resp r) := call r done

/-- A program whose value is of no interest. -/
def void : Calls Req Resp α → Calls Req Resp Unit
  | done _ => done ()
  | call r next => call r fun x => (next x).void

/-- Run a program alone, `serve` answering its calls. -/
def run (serve : W → (r : Req) → Resp r × W) : Calls Req Resp α → W → α × W
  | done a, w => (a, w)
  | call r next, w => (next (serve w r).1).run serve (serve w r).2

theorem run_bind (serve : W → (r : Req) → Resp r × W) (p : Calls Req Resp α)
    (f : α → Calls Req Resp β) (w : W) :
    (p >>= f).run serve w = (f (p.run serve w).1).run serve (p.run serve w).2 := by
  induction p generalizing w with
  | done a => rfl
  | call r next ih => exact ih (serve w r).1 (serve w r).2

/-! What a success rests on: the last answer before it. -/

section Ends

variable (good : (r : Req) → Resp r → Prop)

/-- Whenever an answer makes the program succeed, it is a good one. -/
def EndsWell : Calls Req Resp (Except Err α) → Prop
  | done _ => True
  | call r next => ∀ x, ((∃ a, next x = done (.ok a)) → good r x) ∧ EndsWell (next x)

/-- The program has not succeeded yet, and will by a good answer only. -/
structure Pending (p : Calls Req Resp (Except Err α)) : Prop where
  ends : EndsWell good p
  open_ : ∀ a, p ≠ done (.ok a)

variable {good}

theorem Pending.error (e : Err) : Pending good (done (.error e) : Calls Req Resp (Except Err α)) :=
  ⟨trivial, fun _ h => nomatch h⟩

/-- What comes before a program that has not succeeded yet does not matter. -/
theorem Pending.bind (p : Calls Req Resp α) {f : α → Calls Req Resp (Except Err β)}
    (h : ∀ x, Pending good (f x)) : Pending good (p >>= f) := by
  induction p with
  | done x => exact h x
  | call r next ih =>
    refine ⟨fun x => ⟨fun ⟨a, ha⟩ => absurd ha ((ih x).open_ a), (ih x).ends⟩, fun a ha => ?_⟩
    cases ha

end Ends

end Calls

/-- Why a call reports an error: it was not carried out, or it was and the
answer got lost. -/
inductive Fault where
  | refused (e : Err)
  | lost (e : Err)
deriving DecidableEq

/-- The call is not carried out. -/
def Fault.stops : Option Fault → Bool
  | some (.refused _) => true
  | _ => false

/-! ## Programs side by side -/

section Pool

variable (Req : Type) (Resp : Req → Type) (ι W : Type)

structure Pool where
  world : W
  threads : ι → Calls Req Resp Unit

/-- What drives a pool: how a call of a thread can be answered, how the world
moves on by itself, and which programs a thread may start. -/
structure Protocol where
  serve : ι → W → (r : Req) → Resp r → W → Prop
  drift : W → W → Prop
  starts : ι → Calls Req Resp Unit → Prop

end Pool

section Run

variable {Req : Type} {Resp : Req → Type} {ι W K : Type}

inductive Protocol.Step [DecidableEq ι] (P : Protocol Req Resp ι W) :
    Pool Req Resp ι W → Pool Req Resp ι W → Prop
  | drift {p : Pool Req Resp ι W} {w' : W} (h : P.drift p.world w') :
      Step P p { p with world := w' }
  | start {p : Pool Req Resp ι W} {i : ι} {prog : Calls Req Resp Unit}
      (hidle : p.threads i = .done ()) (h : P.starts i prog) :
      Step P p { p with threads := Function.update p.threads i prog }
  | answer {p : Pool Req Resp ι W} {i : ι} {r : Req} {next : Resp r → Calls Req Resp Unit}
      {x : Resp r} {w' : W} (hcall : p.threads i = .call r next) (h : P.serve i p.world r x w') :
      Step P p ⟨w', Function.update p.threads i (next x)⟩

/-- What a thread knows of the world, and what that entitles it to. The
knowledge of a thread survives every call that another thread is entitled to. -/
structure Discipline (P : Protocol Req Resp ι W) (K : Type) where
  knows : W → ι → K → Prop
  allows : ι → K → Req → Prop
  learn : K → (r : Req) → Resp r → K
  blank : K
  knows_blank : ∀ w i, knows w i blank
  drifted : ∀ {w w' i k}, P.drift w w' → knows w i k → knows w' i k
  learned : ∀ {w i k r x w'}, knows w i k → allows i k r → P.serve i w r x w' →
    knows w' i (learn k r x)
  unharmed : ∀ {w i k r x w' j k'}, knows w i k → allows i k r → P.serve i w r x w' → j ≠ i →
    knows w j k' → knows w' j k'

namespace Discipline

variable {P : Protocol Req Resp ι W} (D : Discipline P K)

/-- Every call of the program is one it is entitled to, whatever is answered. -/
def Safe (i : ι) : K → Calls Req Resp Unit → Prop
  | _, .done _ => True
  | k, .call r next => D.allows i k r ∧ ∀ x, Safe i (D.learn k r x) (next x)

/-- Every thread has some knowledge with which the rest of its program is safe. -/
def Steady (p : Pool Req Resp ι W) : Prop :=
  ∀ i, ∃ k, D.knows p.world i k ∧ D.Safe i k (p.threads i)

theorem steady_of_idle {p : Pool Req Resp ι W} (h : ∀ i, p.threads i = .done ()) : D.Steady p :=
  fun i => ⟨D.blank, D.knows_blank _ _, by simp [h i, Safe]⟩

/-- A thread about to make a call knows enough to be entitled to it. -/
theorem Steady.entitled {D : Discipline P K} {p : Pool Req Resp ι W} (hp : D.Steady p) {i : ι}
    {r : Req} {next : Resp r → Calls Req Resp Unit} (hcall : p.threads i = .call r next) :
    ∃ k, D.knows p.world i k ∧ D.allows i k r := by
  obtain ⟨k, hknows, hsafe⟩ := hp i
  rw [hcall] at hsafe
  exact ⟨k, hknows, hsafe.1⟩

section Steps

variable [DecidableEq ι]

theorem steady_step (hstarts : ∀ i prog, P.starts i prog → D.Safe i D.blank prog)
    {p p' : Pool Req Resp ι W} (h : P.Step p p') (hp : D.Steady p) : D.Steady p' := by
  intro j
  obtain ⟨k', hknows', hsafe'⟩ := hp j
  cases h with
  | drift h => exact ⟨k', D.drifted h hknows', hsafe'⟩
  | @start i prog hidle h =>
    by_cases hj : j = i
    · subst hj
      exact ⟨D.blank, D.knows_blank _ _, by simpa using hstarts j prog h⟩
    · exact ⟨k', hknows', by simpa [hj] using hsafe'⟩
  | @answer i r next x w' hcall h =>
    obtain ⟨k, hknows, hsafe⟩ := hp i
    rw [hcall] at hsafe
    obtain ⟨hallows, hnext⟩ := hsafe
    by_cases hj : j = i
    · subst hj
      exact ⟨D.learn k r x, D.learned hknows hallows h, by simpa using hnext x⟩
    · exact ⟨k', D.unharmed hknows hallows h hj hknows', by simpa [hj] using hsafe'⟩

theorem steady_run (hstarts : ∀ i prog, P.starts i prog → D.Safe i D.blank prog)
    {p p' : Pool Req Resp ι W} (hp : D.Steady p) (hrun : Relation.ReflTransGen P.Step p p') :
    D.Steady p' := by
  induction hrun with
  | refl => exact hp
  | tail _ h ih => exact D.steady_step hstarts h ih

end Steps

end Discipline

end Run

end ValkeyOperator

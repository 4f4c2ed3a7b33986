/-
# `Concur.Prog` — programs as trees of calls

A program talks to the outside world only through calls: it either returns, or
issues a call `e : E` and goes on with whatever reply `R e` comes back.  What a
call does is not said here; the same tree can be run against an oracle, run to
completion against a relation, or interleaved call by call with other parties
(`Concur.System`, `Concur.Pool`).

    ret a        finished with `a`
    call e k     issue `e`, continue with `k reply`

`Calls p e` says that some sequence of replies makes `p` issue `e`; it is what
can be said of a program without saying what the calls do.
-/
import Mathlib.Logic.Relation

namespace Concur

universe u v w w' x

/-- A program over the calls `E`, where the call `e` is answered in `R e`. -/
inductive Prog (E : Type u) (R : E → Type v) (α : Type w) where
  | ret (a : α)
  | call (e : E) (k : R e → Prog E R α)

namespace Prog

variable {E : Type u} {R : E → Type v} {α : Type w} {β : Type w'}

/-- Sequencing: graft `f` onto every leaf. -/
protected def bind : Prog E R α → (α → Prog E R β) → Prog E R β
  | ret a, f => f a
  | call e k, f => call e fun r => (k r).bind f

instance : Monad (Prog E R) where
  pure := ret
  bind := Prog.bind

/-- The program that issues one call and returns its reply. -/
def perform (e : E) : Prog E R (R e) := call e ret

theorem pure_eq_ret (a : α) : (pure a : Prog E R α) = ret a := rfl

@[simp] theorem ret_bind {α β : Type w} (a : α) (f : α → Prog E R β) :
    (ret a : Prog E R α) >>= f = f a := rfl

@[simp] theorem call_bind {α β : Type w} (e : E) (k : R e → Prog E R α) (f : α → Prog E R β) :
    call e k >>= f = call e fun r => k r >>= f := rfl

theorem perform_bind {α : Type v} (e : E) (f : R e → Prog E R α) :
    perform e >>= f = call e f := rfl

theorem bind_assoc {α β γ : Type w} (p : Prog E R α) (f : α → Prog E R β) (g : β → Prog E R γ) :
    p >>= f >>= g = p >>= fun a => f a >>= g := by
  induction p with
  | ret a => rfl
  | call e k ih => exact congrArg (call e) (funext ih)

/-! ## The calls a program may issue -/

/-- `p.Calls e`: some sequence of replies makes `p` issue `e`. -/
inductive Calls : Prog E R α → E → Prop
  | here {e : E} {k : R e → Prog E R α} : Calls (call e k) e
  | later {e e' : E} {k : R e → Prog E R α} (r : R e) : Calls (k r) e' → Calls (call e k) e'

theorem not_calls_ret {a : α} {e : E} : ¬ Calls (ret a : Prog E R α) e :=
  fun h => nomatch h

@[simp] theorem calls_ret {a : α} {e : E} : Calls (ret a : Prog E R α) e ↔ False :=
  iff_of_false not_calls_ret id

@[simp] theorem calls_call {e e' : E} {k : R e → Prog E R α} :
    Calls (call e k) e' ↔ e' = e ∨ ∃ r, Calls (k r) e' := by
  constructor
  · intro h
    cases h with
    | here => exact Or.inl rfl
    | later r h => exact Or.inr ⟨r, h⟩
  · rintro (rfl | ⟨r, h⟩)
    · exact .here
    · exact .later r h

/-- A call of a sequence is a call of its first part or of a continuation. -/
theorem Calls.of_bind {α β : Type w} {p : Prog E R α} {f : α → Prog E R β} {e : E}
    (h : Calls (p >>= f) e) : Calls p e ∨ ∃ a, Calls (f a) e := by
  induction p with
  | ret a => exact Or.inr ⟨a, h⟩
  | call e₀ k ih =>
      rcases calls_call.mp h with rfl | ⟨r, hr⟩
      · exact Or.inl .here
      · rcases ih r hr with hk | hf
        · exact Or.inl (.later r hk)
        · exact Or.inr hf

/-- The calls of a first part stay calls. -/
theorem Calls.bind {α β : Type w} {p : Prog E R α} {e : E} (h : Calls p e)
    (f : α → Prog E R β) : Calls (p >>= f) e := by
  induction h with
  | here => exact .here
  | later r _ ih => exact .later r ih

/-- What is done with a result calls nothing if it only returns. -/
theorem calls_map {α β : Type w} {p : Prog E R α} {g : α → β} {e : E} :
    Calls (p >>= fun a => ret (g a)) e ↔ Calls p e := by
  constructor
  · intro h
    rcases h.of_bind with h | ⟨a, h⟩
    · exact h
    · exact absurd h not_calls_ret
  · exact fun h => h.bind _

theorem calls_perform {e e' : E} (h : Calls (perform e : Prog E R (R e)) e') : e' = e := by
  rcases calls_call.mp h with rfl | ⟨_, hr⟩
  · rfl
  · exact absurd hr not_calls_ret

/-- Every call `p` may issue is among `P`. -/
def Only (P : E → Prop) (p : Prog E R α) : Prop := ∀ e, p.Calls e → P e

theorem Only.ret {P : E → Prop} {a : α} : (ret a : Prog E R α).Only P :=
  fun _ h => absurd h not_calls_ret

theorem Only.perform {P : E → Prop} {e : E} (h : P e) :
    (Prog.perform e : Prog E R (R e)).Only P :=
  fun _ he => calls_perform he ▸ h

theorem Only.bind {α β : Type w} {P : E → Prop} {p : Prog E R α} {f : α → Prog E R β}
    (hp : p.Only P) (hf : ∀ a, (f a).Only P) : (p >>= f).Only P := by
  intro e he
  rcases he.of_bind with he | ⟨a, he⟩
  · exact hp e he
  · exact hf a e he

theorem Only.mono {P Q : E → Prop} (hPQ : ∀ e, P e → Q e) {p : Prog E R α} (h : p.Only P) :
    p.Only Q :=
  fun e he => hPQ e (h e he)

/-! ## Replies that are limited -/

/-- As long as the calls are answered as they may be, what `p` returns is one of `Q`. -/
inductive Yields (may : (e : E) → R e → Prop) (Q : α → Prop) : Prog E R α → Prop
  | ret {a : α} : Q a → Yields may Q (ret a)
  | call {e : E} {k : R e → Prog E R α} : (∀ r, may e r → Yields may Q (k r)) →
      Yields may Q (call e k)

theorem Yields.of_ret {may : (e : E) → R e → Prop} {Q : α → Prop} {a : α}
    (h : Yields may Q (Prog.ret a : Prog E R α)) : Q a := by
  cases h with
  | ret h => exact h

theorem Yields.reply {may : (e : E) → R e → Prop} {Q : α → Prop} {e : E} {k : R e → Prog E R α}
    (h : Yields may Q (Prog.call e k)) {r : R e} (hr : may e r) : Yields may Q (k r) := by
  cases h with
  | call h => exact h r hr

theorem Yields.bind {α β : Type w} {may : (e : E) → R e → Prop} {Q : α → Prop} {Q' : β → Prop}
    {p : Prog E R α} {f : α → Prog E R β} (hp : p.Yields may Q)
    (hf : ∀ a, Q a → (f a).Yields may Q') : (p >>= f).Yields may Q' := by
  induction hp with
  | ret ha => exact hf _ ha
  | call _ ih => exact .call ih

/-- Nothing is asked of what a program returns. -/
theorem Yields.anything {may : (e : E) → R e → Prop} (p : Prog E R α) :
    p.Yields may fun _ => True := by
  induction p with
  | ret a => exact .ret trivial
  | call e k ih => exact .call fun r _ => ih r

/-- As long as the calls are answered as they may be, each of them is among `P`. -/
inductive Meets (may : (e : E) → R e → Prop) (P : E → Prop) : Prog E R α → Prop
  | ret {a : α} : Meets may P (ret a)
  | call {e : E} {k : R e → Prog E R α} : P e → (∀ r, may e r → Meets may P (k r)) →
      Meets may P (call e k)

theorem Meets.bind {α β : Type w} {may : (e : E) → R e → Prop} {P : E → Prop} {p : Prog E R α}
    {f : α → Prog E R β} (hp : p.Meets may P) (hf : ∀ a, (f a).Meets may P) :
    (p >>= f).Meets may P := by
  induction hp with
  | ret => exact hf _
  | call he _ ih => exact .call he ih

theorem Meets.mono {may : (e : E) → R e → Prop} {P Q : E → Prop} (hPQ : ∀ e, P e → Q e)
    {p : Prog E R α} (h : p.Meets may P) : p.Meets may Q := by
  induction h with
  | ret => exact .ret
  | call he _ ih => exact .call (hPQ _ he) ih

/-! ## Running against an oracle -/

/-- The calls a program issues, in order, when every call `e` is answered `answer e`. -/
def trace (answer : (e : E) → R e) : Prog E R α → List E
  | ret _ => []
  | call e k => e :: (k (answer e)).trace answer

/-- The result a program returns when every call `e` is answered `answer e`. -/
def eval (answer : (e : E) → R e) : Prog E R α → α
  | ret a => a
  | call e k => (k (answer e)).eval answer

theorem trace_bind {α β : Type w} (answer : (e : E) → R e) (p : Prog E R α)
    (f : α → Prog E R β) :
    (p >>= f).trace answer = p.trace answer ++ (f (p.eval answer)).trace answer := by
  induction p with
  | ret a => rfl
  | call e k ih => exact congrArg (e :: ·) (ih (answer e))

@[simp] theorem trace_perform (answer : (e : E) → R e) (e : E) :
    (perform e : Prog E R (R e)).trace answer = [e] := rfl

@[simp] theorem eval_perform (answer : (e : E) → R e) (e : E) :
    (perform e : Prog E R (R e)).eval answer = answer e := rfl

/-! ## Running against a server -/

section

variable {σ : Type x}

/-- Run a program to its end, every call being served at once. -/
def run (serve : (e : E) → σ → R e × σ) : Prog E R α → σ → α × σ
  | ret a, s => (a, s)
  | call e k, s => (k (serve e s).1).run serve (serve e s).2

theorem run_bind {α β : Type w} (serve : (e : E) → σ → R e × σ) (p : Prog E R α)
    (f : α → Prog E R β) (s : σ) :
    (p >>= f).run serve s = (f (p.run serve s).1).run serve (p.run serve s).2 := by
  induction p generalizing s with
  | ret a => rfl
  | call e k ih => exact ih (serve e s).1 (serve e s).2

theorem run_preserved {serve : (e : E) → σ → R e × σ} {J : σ → Prop}
    (h : ∀ e s, J s → J (serve e s).2) (p : Prog E R α) {s : σ} (hs : J s) :
    J (p.run serve s).2 := by
  induction p generalizing s with
  | ret a => exact hs
  | call e k ih => exact ih _ (h e s hs)

/-- The calls of such a run, in order. -/
def issued (serve : (e : E) → σ → R e × σ) : Prog E R α → σ → List E
  | ret _, _ => []
  | call e k, s => e :: (k (serve e s).1).issued serve (serve e s).2

/-- What is left of a program, and the state, after its first `n` calls. -/
def advance (serve : (e : E) → σ → R e × σ) : Nat → Prog E R α → σ → Prog E R α × σ
  | 0, p, s => (p, s)
  | _ + 1, ret a, s => (ret a, s)
  | n + 1, call e k, s => (k (serve e s).1).advance serve n (serve e s).2

/-- Each of the first `n` calls is issued in a state where `ok` holds of it. -/
def WithinFirst (serve : (e : E) → σ → R e × σ) (ok : E → σ → Prop) :
    Nat → Prog E R α → σ → Prop
  | n + 1, call e k, s => ok e s ∧ (k (serve e s).1).WithinFirst serve ok n (serve e s).2
  | _, _, _ => True

/-- Every call of such a run is issued in a state where `ok` holds of it. -/
def Within (serve : (e : E) → σ → R e × σ) (ok : E → σ → Prop) : Prog E R α → σ → Prop
  | ret _, _ => True
  | call e k, s => ok e s ∧ (k (serve e s).1).Within serve ok (serve e s).2

theorem Within.of_forall {serve : (e : E) → σ → R e × σ} {ok : E → σ → Prop}
    (h : ∀ e s, ok e s) (p : Prog E R α) (s : σ) : p.Within serve ok s := by
  induction p generalizing s with
  | ret a => exact trivial
  | call e k ih => exact ⟨h e s, ih _ _⟩

theorem Within.of_preserved {serve : (e : E) → σ → R e × σ} {ok : E → σ → Prop} {J : σ → Prop}
    (h : ∀ e s, J s → ok e s ∧ J (serve e s).2) (p : Prog E R α) {s : σ} (hs : J s) :
    p.Within serve ok s := by
  induction p generalizing s with
  | ret a => exact trivial
  | call e k ih => exact ⟨(h e s hs).1, ih _ (h e s hs).2⟩

instance Within.decidable {serve : (e : E) → σ → R e × σ} {ok : E → σ → Prop}
    [∀ e s, Decidable (ok e s)] : (p : Prog E R α) → (s : σ) → Decidable (p.Within serve ok s)
  | ret _, _ => isTrue trivial
  | call e k, s =>
      have : Decidable ((k (serve e s).1).Within serve ok (serve e s).2) := decidable _ _
      inferInstanceAs (Decidable (_ ∧ _))

instance WithinFirst.decidable {serve : (e : E) → σ → R e × σ} {ok : E → σ → Prop}
    [∀ e s, Decidable (ok e s)] :
    (n : Nat) → (p : Prog E R α) → (s : σ) → Decidable (p.WithinFirst serve ok n s)
  | 0, _, _ => isTrue (by simp [WithinFirst])
  | _ + 1, ret _, _ => isTrue trivial
  | n + 1, call e k, s =>
      have : Decidable ((k (serve e s).1).WithinFirst serve ok n (serve e s).2) := decidable n _ _
      inferInstanceAs (Decidable (_ ∧ _))

/-- Nothing is left to be done. -/
def isDone : Prog E R α → Bool
  | ret _ => true
  | call _ _ => false

theorem exists_of_isDone {p : Prog E R α} (h : p.isDone = true) : ∃ a, p = ret a := by
  cases p with
  | ret a => exact ⟨a, rfl⟩
  | call e k => cases h

end

end Prog

end Concur

/-
# `Concur.Pool` — many programs at once

A pool runs one program for each index over a shared state, their calls interleaved in
any order, with moves of the environment in between.

The proof rule needs nothing of the order in which a program issues its calls: if the
program `i` only ever issues calls of `P i`, then what the calls of every `P i` and the
environment preserve holds in every state of every interleaving (`Pool.Run.preserved`).
Where the calls are computed, an interleaving is computed from the turns (`Pool.Run.turns`).
-/
import BranchDB.Concur.Prog
import Mathlib.Logic.Function.Basic

namespace Concur

universe u v w x y

open Relation

variable {E : Type u} {R : E → Type v} {σ : Type w} {α : Type x} {ι : Type y} [DecidableEq ι]

/-- What the calls of a pool may do, and what happens around them. -/
structure Pool (E : Type u) (R : E → Type v) (σ : Type w) where
  exec : (e : E) → σ → R e → σ → Prop
  env : σ → σ → Prop

namespace Pool

/-- A state of an interleaving: the shared state, and what is left of each program. -/
structure Config (E : Type u) (R : E → Type v) (σ : Type w) (α : Type x) (ι : Type y) where
  state : σ
  threads : ι → Prog E R α

variable (S : Pool E R σ)

inductive Step : Config E R σ α ι → Config E R σ α ι → Prop
  | env {s s' : σ} {t : ι → Prog E R α} : S.env s s' → Step ⟨s, t⟩ ⟨s', t⟩
  | call {s s' : σ} {t : ι → Prog E R α} (i : ι) {e : E} {k : R e → Prog E R α} {r : R e} :
      t i = .call e k → S.exec e s r s' → Step ⟨s, t⟩ ⟨s', Function.update t i (k r)⟩

/-- Any number of steps. -/
abbrev Run : Config E R σ α ι → Config E R σ α ι → Prop := ReflTransGen S.Step

/-- The interleavings whose calls all meet `ok`. -/
def restrict (ok : E → σ → Prop) : Pool E R σ where
  exec e s r s' := S.exec e s r s' ∧ ok e s
  env := S.env

variable {S}

/-- What is left of a program issues no other calls than the program. -/
theorem Step.only {P : ι → E → Prop} {c c' : Config E R σ α ι} (h : S.Step c c')
    (hP : ∀ i, (c.threads i).Only (P i)) (i : ι) : (c'.threads i).Only (P i) := by
  cases h with
  | env _ => exact hP i
  | @call s s' t j e k r hj _ =>
      by_cases hij : i = j
      · subst hij
        intro e' he'
        have hlater : (t i).Calls e' := hj ▸ .later r (by simpa using he')
        exact hP i e' hlater
      · simpa [hij] using hP i

theorem Run.preserved {P : ι → E → Prop} {J : σ → Prop}
    (henv : ∀ s s', J s → S.env s s' → J s')
    (hcall : ∀ i e s r s', P i e → J s → S.exec e s r s' → J s')
    {c c' : Config E R σ α ι} (h : S.Run c c') (hP : ∀ i, (c.threads i).Only (P i))
    (hJ : J c.state) : J c'.state := by
  suffices hboth : J c'.state ∧ ∀ i, (c'.threads i).Only (P i) from hboth.1
  induction h with
  | refl => exact ⟨hJ, hP⟩
  | @tail c₁ c₂ _ hs ih =>
      obtain ⟨hJ₁, hP₁⟩ := ih
      refine ⟨?_, hs.only hP₁⟩
      cases hs with
      | env he => exact henv _ _ hJ₁ he
      | @call s s' t i e k r hi hex =>
          have hcalls : (t i).Calls e := hi ▸ .here
          exact hcall i e s r s' (hP₁ i e hcalls) hJ₁ hex

/-- What is left of a program meets what the program meets. -/
theorem Step.meets {may : (e : E) → R e → Prop} {P : ι → E → Prop} {c c' : Config E R σ α ι}
    (hmay : ∀ e s r s', S.exec e s r s' → may e r) (h : S.Step c c')
    (hP : ∀ i, (c.threads i).Meets may (P i)) (i : ι) : (c'.threads i).Meets may (P i) := by
  cases h with
  | env _ => exact hP i
  | @call s s' t j e k r hj hexec =>
      by_cases hij : i = j
      · subst hij
        have hcall : (Prog.call e k).Meets may (P i) := hj ▸ hP i
        cases hcall with
        | call _ hk => simpa using hk r (hmay e s r s' hexec)
      · simpa [hij] using hP i

/-- Where replies are limited, so may be the calls. -/
theorem Run.preserved_of_meets {may : (e : E) → R e → Prop} {P : ι → E → Prop} {J : σ → Prop}
    (hmay : ∀ e s r s', S.exec e s r s' → may e r) (henv : ∀ s s', J s → S.env s s' → J s')
    (hcall : ∀ i e s r s', P i e → J s → S.exec e s r s' → J s')
    {c c' : Config E R σ α ι} (h : S.Run c c') (hP : ∀ i, (c.threads i).Meets may (P i))
    (hJ : J c.state) : J c'.state := by
  suffices hboth : J c'.state ∧ ∀ i, (c'.threads i).Meets may (P i) from hboth.1
  induction h with
  | refl => exact ⟨hJ, hP⟩
  | @tail c₁ c₂ _ hs ih =>
      obtain ⟨hJ₁, hP₁⟩ := ih
      refine ⟨?_, hs.meets hmay hP₁⟩
      cases hs with
      | env he => exact henv _ _ hJ₁ he
      | @call s s' t i e k r hi hexec =>
          have hcalls : (Prog.call e k).Meets may (P i) := hi ▸ hP₁ i
          cases hcalls with
          | call he _ => exact hcall i e s r s' he hJ₁ hexec

/-! ## Conditions on the calls of one program -/

variable (S) in
/-- The steps whose call, if it is of the program `i`, meets `ok i`. -/
inductive StepWhere (ok : ι → E → σ → Prop) : Config E R σ α ι → Config E R σ α ι → Prop
  | env {s s' : σ} {t : ι → Prog E R α} : S.env s s' → StepWhere ok ⟨s, t⟩ ⟨s', t⟩
  | call {s s' : σ} {t : ι → Prog E R α} (i : ι) {e : E} {k : R e → Prog E R α} {r : R e} :
      t i = .call e k → S.exec e s r s' → ok i e s →
      StepWhere ok ⟨s, t⟩ ⟨s', Function.update t i (k r)⟩

variable (S) in
abbrev RunWhere (ok : ι → E → σ → Prop) : Config E R σ α ι → Config E R σ α ι → Prop :=
  ReflTransGen (S.StepWhere ok)

variable {ok : ι → E → σ → Prop}

theorem StepWhere.step {c c' : Config E R σ α ι} (h : S.StepWhere ok c c') : S.Step c c' := by
  cases h with
  | env he => exact .env he
  | call i hi hexec _ => exact .call i hi hexec

theorem RunWhere.run {c c' : Config E R σ α ι} (h : S.RunWhere ok c c') : S.Run c c' :=
  ReflTransGen.mono (fun _ _ hs => StepWhere.step hs) _ _ h

/-- If what meets `ok i` in a state of `J` is answered as it may be, then the program `i` is left
with what it yields. -/
theorem RunWhere.yields {J : σ → Prop} {may : (e : E) → R e → Prop} {Q : α → Prop} {i : ι}
    (hmay : ∀ e s r s', J s → S.exec e s r s' → ok i e s → may e r)
    {c c' : Config E R σ α ι} (h : S.RunWhere ok c c')
    (hJ : ∀ c'', S.RunWhere ok c c'' → J c''.state) (hi : (c.threads i).Yields may Q) :
    (c'.threads i).Yields may Q := by
  induction h with
  | refl => exact hi
  | @tail c₁ c₂ hrun hs ih =>
      have hJ₁ := hJ c₁ hrun
      cases hs with
      | env he => exact ih
      | @call s s' t j e k r hj hexec hok =>
          by_cases hij : i = j
          · subst hij
            have hleft : (Prog.call e k).Yields may Q := hj ▸ ih
            simpa using hleft.reply (hmay e s r s' hJ₁ hexec hok)
          · simpa [hij] using ih

/-- A server whose service is allowed runs the first `n` calls of a program. -/
theorem RunWhere.advance {serve : (e : E) → σ → R e × σ} {fine : E → σ → Prop} (i : ι)
    (h : ∀ e s, fine e s → S.exec e s (serve e s).1 (serve e s).2 ∧ ok i e s) (n : Nat) {s : σ}
    {t : ι → Prog E R α} (hfine : (t i).WithinFirst serve fine n s) :
    S.RunWhere ok ⟨s, t⟩ ⟨((t i).advance serve n s).2,
      Function.update t i ((t i).advance serve n s).1⟩ := by
  induction n generalizing s t with
  | zero => simpa [Prog.advance] using ReflTransGen.refl
  | succ n ih =>
      cases hi : t i with
      | ret a => simpa [Prog.advance, ← hi] using ReflTransGen.refl
      | call e k =>
          rw [hi] at hfine
          obtain ⟨hexec, hok⟩ := h e s hfine.1
          have hfirst : S.StepWhere ok ⟨s, t⟩
              ⟨(serve e s).2, Function.update t i (k (serve e s).1)⟩ := .call i hi hexec hok
          have hrest := ih (s := (serve e s).2) (t := Function.update t i (k (serve e s).1))
            (by simpa using hfine.2)
          simp only [Function.update_self, Function.update_idem] at hrest
          exact .head hfirst hrest

theorem Run.advance {serve : (e : E) → σ → R e × σ} {fine : E → σ → Prop}
    (h : ∀ e s, fine e s → S.exec e s (serve e s).1 (serve e s).2) (i : ι) (n : Nat) {s : σ}
    {t : ι → Prog E R α} (hfine : (t i).WithinFirst serve fine n s) :
    S.Run ⟨s, t⟩ ⟨((t i).advance serve n s).2,
      Function.update t i ((t i).advance serve n s).1⟩ := by
  have hwhere : S.RunWhere (fun _ _ _ => True) ⟨s, t⟩ ⟨((t i).advance serve n s).2,
      Function.update t i ((t i).advance serve n s).1⟩ :=
    RunWhere.advance i (fun e s hs => ⟨h e s hs, trivial⟩) n hfine
  exact hwhere.run

/-! ## Taking turns -/

section Turns

variable (serve : ι → (e : E) → σ → R e × σ)

/-- The programs take turns: each is served so many of its calls, and the next goes on. -/
def turns : List (ι × Nat) → Config E R σ α ι → Config E R σ α ι
  | [], c => c
  | (i, n) :: rest, c =>
    let left := (c.threads i).advance (serve i) n c.state
    turns rest ⟨left.2, Function.update c.threads i left.1⟩

/-- Every call that is served in its turn is fine. -/
def TurnsWithin (fine : ι → E → σ → Prop) : List (ι × Nat) → Config E R σ α ι → Prop
  | [], _ => True
  | (i, n) :: rest, c =>
    (c.threads i).WithinFirst (serve i) (fine i) n c.state ∧
      TurnsWithin fine rest (turns serve [(i, n)] c)

instance TurnsWithin.decidable {fine : ι → E → σ → Prop} [∀ i e s, Decidable (fine i e s)] :
    (l : List (ι × Nat)) → (c : Config E R σ α ι) → Decidable (TurnsWithin serve fine l c)
  | [], _ => isTrue trivial
  | (i, n) :: rest, c =>
    have : Decidable (TurnsWithin serve fine rest (turns serve [(i, n)] c)) := decidable rest _
    inferInstanceAs (Decidable (_ ∧ _))

variable {serve} {fine : ι → E → σ → Prop} {c : Config E R σ α ι}

theorem RunWhere.turns (h : ∀ i e s, fine i e s →
    S.exec e s (serve i e s).1 (serve i e s).2 ∧ ok i e s) (l : List (ι × Nat))
    (hfine : TurnsWithin serve fine l c) : S.RunWhere ok c (turns serve l c) := by
  induction l generalizing c with
  | nil => exact .refl
  | cons turn rest ih =>
      obtain ⟨i, n⟩ := turn
      exact (RunWhere.advance i (h i) n hfine.1).trans (ih hfine.2)

theorem Run.turns (h : ∀ i e s, fine i e s → S.exec e s (serve i e s).1 (serve i e s).2)
    (l : List (ι × Nat)) (hfine : TurnsWithin serve fine l c) :
    S.Run c (Pool.turns serve l c) := by
  have hwhere : S.RunWhere (fun _ _ _ => True) c (Pool.turns serve l c) :=
    RunWhere.turns (fun i e s hs => ⟨h i e s hs, trivial⟩) l hfine
  exact hwhere.run

end Turns

end Pool

end Concur

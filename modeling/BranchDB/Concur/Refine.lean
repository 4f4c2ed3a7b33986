/-
# `Concur.Refine` — one system told in the states of another

    s ─────S─────▶ s'
    │rel           │rel
    t ──T.env*,T─▶ t'

`Refines S T rel`: whatever `S` does in a state, `T` can do in every state that tells it, with the
same program in flight.  A call is matched by the same call with the same reply; to match it one
may use that `T` was going to issue it, and so all that is known of the runs of `T`.  A move of
the environment may be matched by any number of them.

Then everything that holds of the runs of `T` holds of what the runs of `S` tell (`Refines.reach`).
-/
import BranchDB.Concur.System

namespace Concur

universe u v w w' x

open Relation

variable {E : Type u} {R : E → Type v} {σ : Type w} {τ : Type w'} {α : Type x}

namespace System

structure Refines (S : System E R σ α) (T : System E R τ α) (rel : σ → τ → Prop) : Prop where
  init : ∀ {s}, S.init s → ∃ t, T.init t ∧ rel s t
  exec : ∀ {e r s s' t}, rel s t → (∃ k, T.Reach ⟨t, some (.call e k)⟩) → S.exec e s r s' →
    ∃ t', T.exec e t r t' ∧ rel s' t'
  env : ∀ {s s' t}, rel s t → S.env s s' → ∃ t', ReflTransGen T.env t t' ∧ rel s' t'
  start : ∀ {s s' t}, rel s t → S.start s s' → ∃ t', T.start t t' ∧ rel s' t'
  main : ∀ {p}, S.main p → T.main p

variable {S : System E R σ α} {T : System E R τ α} {rel : σ → τ → Prop}

/-- What one system reaches, the other reaches as it is told. -/
theorem Refines.reach (h : S.Refines T rel) {c : Config E R σ α} (hc : S.Reach c) :
    ∃ t, T.Reach ⟨t, c.running⟩ ∧ rel c.state t := by
  induction hc with
  | init hinit =>
      obtain ⟨t, ht, hrel⟩ := h.init hinit
      exact ⟨t, .init ht, hrel⟩
  | step _ hstep ih =>
      obtain ⟨t, hreach, hrel⟩ := ih
      cases hstep with
      | env henv =>
          obtain ⟨t', hsteps, hrel'⟩ := h.env hrel henv
          exact ⟨t', hreach.env hsteps, hrel'⟩
      | start hmain hstart =>
          obtain ⟨t', hstart', hrel'⟩ := h.start hrel hstart
          exact ⟨t', hreach.step (.start (h.main hmain) hstart'), hrel'⟩
      | call r hexec =>
          obtain ⟨t', hexec', hrel'⟩ := h.exec hrel ⟨_, hreach⟩ hexec
          exact ⟨t', hreach.step (.call r hexec'), hrel'⟩
      | stop => exact ⟨t, hreach.step .stop, hrel⟩

end System

end Concur

/-
# `Concur.Record` — what a program did, among others

`S.Records p s tr s'`: from the state `s`, with any moves of the environment in between, `p` may
make the calls `tr` and be interrupted, or be at its end, in `s'`.  Each call stands there with
the states right before and after it.

A record of `call e k` is empty or begins with that call (`records_call`), so what holds of all
records of a program is proved by going through its calls.
-/
import BranchDB.Concur.Ends
import BranchDB.Concur.System

namespace Concur.System

universe u v w x

open Relation

variable {E : Type u} {R : E → Type v} {σ : Type w} {α : Type x} {S : System E R σ α}

inductive Records (S : System E R σ α) :
    Prog E R α → σ → List (Event E R σ) → σ → Prop
  | stop {p : Prog E R α} {s : σ} : S.Records p s [] s
  | env {p : Prog E R α} {s s₁ s' : σ} {tr : List (Event E R σ)} :
      S.env s s₁ → S.Records p s₁ tr s' → S.Records p s tr s'
  | call {e : E} {k : R e → Prog E R α} {s s₁ s' : σ} {r : R e} {tr : List (Event E R σ)} :
      S.exec e s r s₁ → S.Records (k r) s₁ tr s' → S.Records (.call e k) s (⟨e, s, r, s₁⟩ :: tr) s'

variable {p : Prog E R α} {s s' : σ} {tr : List (Event E R σ)}

theorem records_ret {a : α} (h : S.Records (.ret a) s tr s') : tr = [] := by
  generalize hp : (Prog.ret a : Prog E R α) = p at h
  induction h with
  | stop => rfl
  | env _ _ ih => exact ih hp
  | call => cases hp

theorem records_call {e : E} {k : R e → Prog E R α} (h : S.Records (.call e k) s tr s') :
    tr = [] ∨ ∃ s₁ r s₂ rest, ReflTransGen S.env s s₁ ∧ S.exec e s₁ r s₂ ∧
      S.Records (k r) s₂ rest s' ∧ tr = ⟨e, s₁, r, s₂⟩ :: rest := by
  generalize hp : Prog.call e k = p at h
  induction h with
  | stop => exact Or.inl rfl
  | env he _ ih =>
      refine (ih hp).imp_right ?_
      rintro ⟨s₁, r, s₂, rest, henv, hcall, hrest, htr⟩
      exact ⟨s₁, r, s₂, rest, .head he henv, hcall, hrest, htr⟩
  | call hexec hrest _ =>
      cases hp
      exact Or.inr ⟨_, _, _, _, .refl, hexec, hrest, rfl⟩

/-- Nobody has to move in between. -/
theorem records_of_ends {a : α} (h : p.Ends S.exec s tr a s') : S.Records p s tr s' := by
  induction h with
  | ret => exact .stop
  | call hexec _ ih => exact .call hexec ih

end Concur.System

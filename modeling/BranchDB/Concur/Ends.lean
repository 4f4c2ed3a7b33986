/-
# `Concur.Ends` — a program run from its start to its end

`p.Ends exec s tr a s'`: with nobody else around, `p` started in `s` can return `a` and leave
`s'`, its calls being executed by `exec`; `tr` is what was called, in order, each call with
the states around it and its reply.

A run of a sequence is a run of its parts (`ends_bind`).  What the calls of a program
preserve, its runs preserve (`Ends.preserved`), and each entry of the record is a step of
`exec` (`Ends.mem`).
-/
import BranchDB.Concur.Prog

namespace Concur

universe u v w x

/-- A call that was executed. -/
structure Event (E : Type u) (R : E → Type v) (σ : Type x) where
  call : E
  before : σ
  reply : R call
  after : σ

namespace Prog

variable {E : Type u} {R : E → Type v} {σ : Type x} {exec : (e : E) → σ → R e → σ → Prop}

inductive Ends (exec : (e : E) → σ → R e → σ → Prop) {α : Type w} :
    Prog E R α → σ → List (Event E R σ) → α → σ → Prop
  | ret {a : α} {s : σ} : Ends exec (ret a) s [] a s
  | call {e : E} {k : R e → Prog E R α} {s s₁ s' : σ} {r : R e} {tr : List (Event E R σ)} {a : α} :
      exec e s r s₁ → Ends exec (k r) s₁ tr a s' →
      Ends exec (call e k) s (⟨e, s, r, s₁⟩ :: tr) a s'

variable {α β : Type w} {p : Prog E R α} {s s' : σ} {tr : List (Event E R σ)} {a : α}

theorem ends_ret {b : α} :
    (ret b : Prog E R α).Ends exec s tr a s' ↔ tr = [] ∧ a = b ∧ s' = s := by
  constructor
  · intro h
    cases h with
    | ret => exact ⟨rfl, rfl, rfl⟩
  · rintro ⟨rfl, rfl, rfl⟩
    exact .ret

theorem ends_call {e : E} {k : R e → Prog E R α} :
    (call e k).Ends exec s tr a s' ↔ ∃ r s₁ rest, exec e s r s₁ ∧
      (k r).Ends exec s₁ rest a s' ∧ tr = ⟨e, s, r, s₁⟩ :: rest := by
  constructor
  · intro h
    cases h with
    | call hexec hrest => exact ⟨_, _, _, hexec, hrest, rfl⟩
  · rintro ⟨r, s₁, rest, hexec, hrest, rfl⟩
    exact .call hexec hrest

theorem ends_bind {f : α → Prog E R β} {b : β} :
    (p >>= f).Ends exec s tr b s' ↔ ∃ a s₁ first rest, p.Ends exec s first a s₁ ∧
      (f a).Ends exec s₁ rest b s' ∧ tr = first ++ rest := by
  induction p generalizing s tr with
  | ret a =>
      constructor
      · intro h
        exact ⟨a, s, [], tr, .ret, h, rfl⟩
      · rintro ⟨_, _, _, rest, hfirst, hrest, rfl⟩
        obtain ⟨rfl, rfl, rfl⟩ := ends_ret.mp hfirst
        exact hrest
  | call e k ih =>
      constructor
      · intro h
        obtain ⟨r, s₁, more, hexec, hmore, rfl⟩ := ends_call.mp h
        obtain ⟨a, s₂, first, rest, hfirst, hrest, rfl⟩ := (ih r).mp hmore
        exact ⟨a, s₂, _ :: first, rest, .call hexec hfirst, hrest, rfl⟩
      · rintro ⟨a, s₁, _, rest, hfirst, hrest, rfl⟩
        obtain ⟨r, s₂, first, hexec, hmore, rfl⟩ := ends_call.mp hfirst
        exact .call hexec ((ih r).mpr ⟨a, s₁, first, rest, hmore, hrest, rfl⟩)

theorem ends_perform {e : E} {a : R e} :
    (perform e : Prog E R (R e)).Ends exec s tr a s' ↔ exec e s a s' ∧ tr = [⟨e, s, a, s'⟩] := by
  constructor
  · intro h
    obtain ⟨r, s₁, rest, hexec, hrest, rfl⟩ := ends_call.mp h
    obtain ⟨rfl, rfl, rfl⟩ := ends_ret.mp hrest
    exact ⟨hexec, rfl⟩
  · rintro ⟨hexec, rfl⟩
    exact .call hexec .ret

/-- Every entry of the record is a call of the program, executed. -/
theorem Ends.mem (h : p.Ends exec s tr a s') :
    ∀ ev ∈ tr, p.Calls ev.call ∧ exec ev.call ev.before ev.reply ev.after := by
  induction h with
  | ret => exact nofun
  | call hexec _ ih =>
      intro ev hev
      rcases List.mem_cons.mp hev with rfl | hev
      · exact ⟨.here, hexec⟩
      · exact ⟨.later _ (ih ev hev).1, (ih ev hev).2⟩

/-- Induction over the calls of a run. -/
theorem Ends.preserved {P : E → Prop} {J : σ → Prop}
    (hcall : ∀ e s r s', P e → J s → exec e s r s' → J s') (h : p.Ends exec s tr a s')
    (hP : p.Only P) (hJ : J s) : J s' := by
  induction h with
  | ret => exact hJ
  | call hexec _ ih =>
      exact ih (fun e he => hP e (.later _ he)) (hcall _ _ _ _ (hP _ .here) hJ hexec)

/-- What is executed may be described otherwise. -/
theorem Ends.mono {exec' : (e : E) → σ → R e → σ → Prop}
    (hexec : ∀ e s r s', exec e s r s' → exec' e s r s') (h : p.Ends exec s tr a s') :
    p.Ends exec' s tr a s' := by
  induction h with
  | ret => exact .ret
  | call he _ ih => exact .call (hexec _ _ _ _ he) ih

/-- The record of a program whose calls are served at once. -/
def record (serve : (e : E) → σ → R e × σ) : Prog E R α → σ → List (Event E R σ)
  | ret _, _ => []
  | call e k, s =>
    ⟨e, s, (serve e s).1, (serve e s).2⟩ :: (k (serve e s).1).record serve (serve e s).2

/-- A server whose service is allowed runs a program to its end. -/
theorem ends_record {serve : (e : E) → σ → R e × σ}
    (h : ∀ e s, exec e s (serve e s).1 (serve e s).2) (p : Prog E R α) (s : σ) :
    p.Ends exec s (p.record serve s) (p.run serve s).1 (p.run serve s).2 := by
  induction p generalizing s with
  | ret a => exact .ret
  | call e k ih => exact .call (h e s) (ih (serve e s).1 (serve e s).2)

theorem map_call_record (serve : (e : E) → σ → R e × σ) (p : Prog E R α) (s : σ) :
    (p.record serve s).map (·.call) = p.issued serve s := by
  induction p generalizing s with
  | ret a => rfl
  | call e k ih => exact congrArg (e :: ·) (ih (serve e s).1 (serve e s).2)

theorem ends_issued {serve : (e : E) → σ → R e × σ}
    (h : ∀ e s, exec e s (serve e s).1 (serve e s).2) (p : Prog E R α) (s : σ) :
    ∃ tr, p.Ends exec s tr (p.run serve s).1 (p.run serve s).2 ∧
      tr.map (·.call) = p.issued serve s :=
  ⟨_, ends_record h p s, map_call_record serve p s⟩

theorem ends_run {serve : (e : E) → σ → R e × σ}
    (h : ∀ e s, exec e s (serve e s).1 (serve e s).2) (p : Prog E R α) (s : σ) :
    ∃ tr, p.Ends exec s tr (p.run serve s).1 (p.run serve s).2 := by
  obtain ⟨tr, hrun, -⟩ := ends_issued h p s
  exact ⟨tr, hrun⟩

/-- A server whose service is allowed where it is asked for runs a program to its end. -/
theorem ends_within {serve : (e : E) → σ → R e × σ} {ok : E → σ → Prop}
    (h : ∀ e s, ok e s → exec e s (serve e s).1 (serve e s).2) (p : Prog E R α) {s : σ}
    (hp : p.Within serve ok s) : ∃ tr, p.Ends exec s tr (p.run serve s).1 (p.run serve s).2 := by
  induction p generalizing s with
  | ret a => exact ⟨[], .ret⟩
  | call e k ih =>
      obtain ⟨tr, htr⟩ := ih (serve e s).1 hp.2
      exact ⟨_, .call (h e s hp.1) htr⟩

end Prog

end Concur

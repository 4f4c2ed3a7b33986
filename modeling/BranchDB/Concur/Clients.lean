/-
# `Concur.Clients` — a system among its clients

Clients are programs of their own, with calls of their own, over the state of a system.  Any
number of them are in flight at a time, each stepped by itself:

    arrives   a client begins
    calls     one of them makes a call
    leaves    one of them is done, or gone

If what the calls of the clients do is nothing that the environment of the system could not do
anyway, then the clients do not show: what the system reaches among them it reaches alone
(`Clients.refines`).
-/
import BranchDB.Concur.Refine

namespace Concur

universe u u' v v' w x x'

open Relation

variable {E : Type u} {R : E → Type v} {σ : Type w} {α : Type x}
  {E' : Type u'} {R' : E' → Type v'} {β : Type x'}

/-- What clients may do to a state, and which there are. -/
structure Clients (E' : Type u') (R' : E' → Type v') (σ : Type w) (β : Type x') where
  exec : (e : E') → σ → R' e → σ → Prop
  main : Prog E' R' β → Prop

/-- A state, and the clients in flight. -/
structure Busy (E' : Type u') (R' : E' → Type v') (σ : Type w) (β : Type x') where
  state : σ
  clients : List (Prog E' R' β)

namespace Clients

variable (C : Clients E' R' σ β) (T : System E R σ α)

/-- A move of the environment, or of a client. -/
inductive Env (s : Busy E' R' σ β) : Busy E' R' σ β → Prop
  | env {t : σ} : T.env s.state t → Env s ⟨t, s.clients⟩
  | arrives {p : Prog E' R' β} : C.main p → Env s ⟨s.state, p :: s.clients⟩
  | calls {front back : List (Prog E' R' β)} {e : E'} {k : R' e → Prog E' R' β} {r : R' e} {t : σ} :
      s.clients = front ++ .call e k :: back → C.exec e s.state r t →
      Env s ⟨t, front ++ k r :: back⟩
  | leaves {front back : List (Prog E' R' β)} {p : Prog E' R' β} :
      s.clients = front ++ p :: back → Env s ⟨s.state, front ++ back⟩

/-- The system among the clients. -/
def around : System E R (Busy E' R' σ β) α where
  init s := T.init s.state ∧ s.clients = []
  exec e s r s' := T.exec e s.state r s'.state ∧ s'.clients = s.clients
  env := C.Env T
  start s s' := T.start s.state s'.state ∧ s'.clients = s.clients
  main := T.main

variable {C T}

/-- The newest client is served its next `n` calls. -/
theorem Reach.advance_client {serve : (e : E') → σ → R' e × σ}
    (hserve : ∀ e s, C.exec e s (serve e s).1 (serve e s).2) (n : Nat) {p : Prog E' R' β} {s : σ}
    {rest : List (Prog E' R' β)} {running : Option (Prog E R α)}
    (h : (C.around T).Reach ⟨⟨s, p :: rest⟩, running⟩) :
    (C.around T).Reach ⟨⟨(p.advance serve n s).2, (p.advance serve n s).1 :: rest⟩, running⟩ := by
  induction n generalizing p s with
  | zero => exact h
  | succ n ih =>
      cases p with
      | ret a => exact h
      | call e k =>
          have hcalls : C.Env T ⟨s, .call e k :: rest⟩
              ⟨(serve e s).2, [] ++ k (serve e s).1 :: rest⟩ := .calls rfl (hserve e s)
          exact ih (h.step (.env hcalls))

/-- The program of the system is served its next `n` calls. -/
theorem Reach.advance {serve : (e : E) → σ → R e × σ}
    (hserve : ∀ e s, T.exec e s (serve e s).1 (serve e s).2) (n : Nat) {p : Prog E R α} {s : σ}
    {clients : List (Prog E' R' β)} (h : (C.around T).Reach ⟨⟨s, clients⟩, some p⟩) :
    (C.around T).Reach ⟨⟨(p.advance serve n s).2, clients⟩, some (p.advance serve n s).1⟩ := by
  induction n generalizing p s with
  | zero => exact h
  | succ n ih =>
      cases p with
      | ret a => exact h
      | call e k =>
          have hexec : (C.around T).exec e ⟨s, clients⟩ (serve e s).1 ⟨(serve e s).2, clients⟩ :=
            ⟨hserve e s, rfl⟩
          exact ih (h.step (.call _ hexec))

variable {may : (e : E') → R' e → Prop} {P : E' → Prop}

/-- The state is told as it is; the clients in flight keep to their calls. -/
structure Tells (may : (e : E') → R' e → Prop) (P : E' → Prop) (s : Busy E' R' σ β) (t : σ) :
    Prop where
  state : s.state = t
  meets : ∀ p ∈ s.clients, p.Meets may P

/-- Clients that do nothing but what the environment could do. -/
theorem refines (hmain : ∀ p, C.main p → p.Meets may P)
    (hmay : ∀ e s r s', C.exec e s r s' → may e r)
    (hmoves : ∀ e s r s', P e → C.exec e s r s' → ReflTransGen T.env s s') :
    (C.around T).Refines T (Tells may P) where
  init {s} hinit := ⟨s.state, hinit.1, rfl, by simp [hinit.2]⟩
  exec {e r s s' t} htells _ hexec := by
    obtain ⟨rfl, hmeets⟩ := htells
    obtain ⟨hexec, hclients⟩ := hexec
    exact ⟨s'.state, hexec, rfl, hclients ▸ hmeets⟩
  env {s s' t} htells henv := by
    obtain ⟨rfl, hmeets⟩ := htells
    cases henv with
    | env henv => exact ⟨_, .single henv, rfl, hmeets⟩
    | arrives hp =>
        refine ⟨_, .refl, rfl, ?_⟩
        intro p hmem
        rcases List.mem_cons.mp hmem with rfl | hmem
        · exact hmain p hp
        · exact hmeets p hmem
    | @calls front back e k r t hsplit hexec =>
        have hcall : (Prog.call e k : Prog E' R' β).Meets may P :=
          hmeets _ (hsplit ▸ List.mem_append_right _ List.mem_cons_self)
        cases hcall with
        | call he hk =>
            refine ⟨t, hmoves e _ r t he hexec, rfl, ?_⟩
            intro p hmem
            rcases List.mem_append.mp hmem with hmem | hmem
            · exact hmeets p (hsplit ▸ List.mem_append_left _ hmem)
            · rcases List.mem_cons.mp hmem with rfl | hmem
              · exact hk r (hmay e _ r t hexec)
              · exact hmeets p (hsplit ▸ List.mem_append_right _ (List.mem_cons_of_mem _ hmem))
    | leaves hsplit =>
        refine ⟨_, .refl, rfl, ?_⟩
        intro p hmem
        rcases List.mem_append.mp hmem with hmem | hmem
        · exact hmeets p (hsplit ▸ List.mem_append_left _ hmem)
        · exact hmeets p (hsplit ▸ List.mem_append_right _ (List.mem_cons_of_mem _ hmem))
  start {s s' t} htells hstart := by
    obtain ⟨rfl, hmeets⟩ := htells
    exact ⟨s'.state, hstart.1, rfl, hstart.2 ▸ hmeets⟩
  main hmain := hmain

end Clients

end Concur

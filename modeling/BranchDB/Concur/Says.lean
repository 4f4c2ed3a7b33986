/-
# `Concur.Says` — what a program says, whoever answers

`p.Says l`: `p` may begin with the calls of `l`, when they are answered as it says there.  No
state is looked at, so what holds of everything a program says holds of its records in every
system (`Records.says`), however the calls are executed and whatever happens in between.
-/
import BranchDB.Concur.Record

namespace Concur

universe u v w x

open Relation

variable {E : Type u} {R : E → Type v} {α : Type x}

namespace Prog

inductive Says : Prog E R α → List ((e : E) × R e) → Prop
  | stop {p : Prog E R α} : Says p []
  | call {e : E} {k : R e → Prog E R α} {r : R e} {l : List ((e : E) × R e)} :
      Says (k r) l → Says (call e k) (⟨e, r⟩ :: l)

theorem says_ret {a : α} {l : List ((e : E) × R e)} (h : (ret a : Prog E R α).Says l) : l = [] := by
  cases h with
  | stop => rfl

theorem not_says_ret {a : α} {before after : List ((e : E) × R e)} {said : (e : E) × R e} :
    ¬ (ret a : Prog E R α).Says (before ++ said :: after) := by
  intro h
  have hnil := says_ret h
  simp at hnil

theorem says_call {e : E} {k : R e → Prog E R α} {l : List ((e : E) × R e)}
    (h : (call e k).Says l) : l = [] ∨ ∃ r rest, l = ⟨e, r⟩ :: rest ∧ (k r).Says rest := by
  cases h with
  | stop => exact Or.inl rfl
  | call h => exact Or.inr ⟨_, _, rfl, h⟩

/-- Something said is the first call, or is said after it. -/
theorem says_split {e : E} {k : R e → Prog E R α} {before after : List ((e : E) × R e)}
    {said : (e : E) × R e} (h : (call e k).Says (before ++ said :: after)) :
    (∃ r, said = ⟨e, r⟩) ∨
      ∃ r rest, before = ⟨e, r⟩ :: rest ∧ (k r).Says (rest ++ said :: after) := by
  rcases says_call h with hnil | ⟨r, rest, heq, hrest⟩
  · simp at hnil
  · cases before with
    | nil =>
        cases heq
        exact Or.inl ⟨r, rfl⟩
    | cons first before =>
        cases heq
        exact Or.inr ⟨r, before, rfl, hrest⟩

/-- What a first part does not call is said by what follows it. -/
theorem says_bind {α β : Type x} {p : Prog E R α} {f : α → Prog E R β}
    {before after : List ((e : E) × R e)} {said : (e : E) × R e} (hp : ¬ p.Calls said.1)
    (h : (p >>= f).Says (before ++ said :: after)) :
    ∃ a early late, before = early ++ late ∧ (f a).Says (late ++ said :: after) := by
  induction p generalizing before with
  | ret a => exact ⟨a, [], before, rfl, h⟩
  | call e k ih =>
      rcases says_split h with ⟨r, rfl⟩ | ⟨r, rest, rfl, hrest⟩
      · exact absurd .here hp
      · have hk : ¬ (k r).Calls said.1 := fun hcalls => hp (.later r hcalls)
        obtain ⟨a, early, late, rfl, hsays⟩ := ih r hk hrest
        exact ⟨a, ⟨e, r⟩ :: early, late, rfl, hsays⟩

/-- What is said is among the calls. -/
theorem Says.calls {p : Prog E R α} {l : List ((e : E) × R e)} (h : p.Says l) :
    ∀ said ∈ l, p.Calls said.1 := by
  induction h with
  | stop => exact nofun
  | call _ ih =>
      intro said hmem
      rcases List.mem_cons.mp hmem with rfl | hmem
      · exact .here
      · exact .later _ (ih said hmem)

end Prog

/-! ## In a system -/

variable {σ : Type w}

/-- The call of an event, with its reply. -/
def Event.said (ev : Event E R σ) : (e : E) × R e := ⟨ev.call, ev.reply⟩

namespace System

variable {S : System E R σ α} {p : Prog E R α} {s s' : σ} {tr : List (Event E R σ)}

theorem Records.says (h : S.Records p s tr s') : p.Says (tr.map Event.said) := by
  induction h with
  | stop => exact .stop
  | env _ _ ih => exact ih
  | call _ _ ih => exact .call ih

/-- The run up to the first event, and what is recorded after it. -/
theorem records_cons {ev : Event E R σ} (h : S.Records p s (ev :: tr) s') :
    ∃ k, ReflTransGen S.Step ⟨s, some p⟩ ⟨ev.before, some (.call ev.call k)⟩ ∧
      S.exec ev.call ev.before ev.reply ev.after ∧ S.Records (k ev.reply) ev.after tr s' := by
  generalize htr : ev :: tr = evs at h
  induction h with
  | stop => cases htr
  | env he _ ih =>
      obtain ⟨k, hsteps, hrest⟩ := ih htr
      exact ⟨k, .head (.env he) hsteps, hrest⟩
  | @call e k s s₁ _ r _ hexec hrest _ =>
      cases htr
      exact ⟨k, .refl, hexec, hrest⟩

/-- The run up to an event, and what is recorded from there. -/
theorem records_append {before rest : List (Event E R σ)} (h : S.Records p s (before ++ rest) s') :
    ∃ p₁ s₁, ReflTransGen S.Step ⟨s, some p⟩ ⟨s₁, some p₁⟩ ∧ S.Records p₁ s₁ rest s' := by
  induction before generalizing p s with
  | nil => exact ⟨p, s, .refl, h⟩
  | cons ev before ih =>
      obtain ⟨k, hsteps, hexec, hmore⟩ := records_cons h
      obtain ⟨p₁, s₁, hsteps₁, hrest⟩ := ih hmore
      exact ⟨p₁, s₁, (hsteps.tail (.call _ hexec)).trans hsteps₁, hrest⟩

/-- An event of a run, the steps that lead to it and those that lead on to a later one. -/
theorem records_between {ev ev' : Event E R σ} {a b c : List (Event E R σ)}
    (h : S.Records p s (a ++ ev :: (b ++ ev' :: c)) s') :
    ∃ k k', ReflTransGen S.Step ⟨s, some p⟩ ⟨ev.before, some (.call ev.call k)⟩ ∧
      S.exec ev.call ev.before ev.reply ev.after ∧
      ReflTransGen S.Step ⟨ev.after, some (k ev.reply)⟩ ⟨ev'.before, some (.call ev'.call k')⟩ ∧
      S.exec ev'.call ev'.before ev'.reply ev'.after := by
  obtain ⟨p₁, s₁, hsteps₁, h₁⟩ := records_append h
  obtain ⟨k, hsteps, hexec, hrest⟩ := records_cons h₁
  obtain ⟨p₂, s₂, hsteps₂, h₂⟩ := records_append hrest
  obtain ⟨k', hsteps', hexec', -⟩ := records_cons h₂
  exact ⟨k, k', hsteps₁.trans hsteps, hexec, hsteps₂.trans hsteps', hexec'⟩

end System

end Concur

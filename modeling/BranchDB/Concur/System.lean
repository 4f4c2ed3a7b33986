/-
# `Concur.System` — one program at a time, interrupted at will

A `System` runs programs over a shared state.  At most one program is running;
between any two of its calls the environment may move the state, the program may
be dropped (its process crashed), and when none is running a new one may start.

    env      s ⟶ s'                       the environment moves
    start    none ⟶ some p                a program begins
    call     some (call e k) ⟶ some (k r) one call is executed
    stop     some p ⟶ none                the program returned, or was cut short

The proof rule is rely/guarantee.  A `Contract` fixes an invariant and, for each
call, what must be true at the moment it is issued (`guar`).  `Holds` checks one
program against the contract call by call, letting the environment move before
each call.  `System.Reach.guarded` then says: in every run, every call is issued
in a state where its guarantee holds.  Everything else about runs is derived from
that by the induction rules of `Preserved`, which hand the guarantee to the call case.
-/
import BranchDB.Concur.Prog

namespace Concur

universe u v w x

open Relation

variable {E : Type u} {R : E → Type v} {σ : Type w} {α : Type x}

/-- Programs over a shared state: what they may do to it and what happens around them. -/
structure System (E : Type u) (R : E → Type v) (σ : Type w) (α : Type x) where
  /-- The states a run may begin in. -/
  init : σ → Prop
  /-- `exec e s r s'`: the call `e` may take `s` to `s'` and be answered `r`. -/
  exec : (e : E) → σ → R e → σ → Prop
  /-- A move of the environment. -/
  env : σ → σ → Prop
  /-- The bookkeeping done when a program starts. -/
  start : σ → σ → Prop
  /-- The programs that may be started. -/
  main : Prog E R α → Prop

/-- A state of a run: the shared state and the program in flight, if any. -/
structure Config (E : Type u) (R : E → Type v) (σ : Type w) (α : Type x) where
  state : σ
  running : Option (Prog E R α)

/-- The program in flight is about to issue `e`. -/
def Config.Issues (c : Config E R σ α) (e : E) : Prop := ∃ k, c.running = some (.call e k)

namespace System

variable (S : System E R σ α)

/-- One step of a run. -/
inductive Step : Config E R σ α → Config E R σ α → Prop
  | env {s s' : σ} {p : Option (Prog E R α)} : S.env s s' → Step ⟨s, p⟩ ⟨s', p⟩
  | start {s s' : σ} {p : Prog E R α} : S.main p → S.start s s' → Step ⟨s, none⟩ ⟨s', some p⟩
  | call {s s' : σ} {e : E} {k : R e → Prog E R α} (r : R e) :
      S.exec e s r s' → Step ⟨s, some (.call e k)⟩ ⟨s', some (k r)⟩
  | stop {s : σ} {p : Prog E R α} : Step ⟨s, some p⟩ ⟨s, none⟩

/-- The configurations some run reaches. -/
inductive Reach : Config E R σ α → Prop
  | init {s : σ} : S.init s → Reach ⟨s, none⟩
  | step {c c' : Config E R σ α} : Reach c → S.Step c c' → Reach c'

/-- The runs of `S` whose calls all meet `okCall` and whose environment moves all meet `okEnv`. -/
def restrict (okCall : (e : E) → σ → R e → σ → Prop) (okEnv : σ → σ → Prop) :
    System E R σ α where
  init := S.init
  exec e s r s' := S.exec e s r s' ∧ okCall e s r s'
  env s s' := S.env s s' ∧ okEnv s s'
  start := S.start
  main := S.main

variable {S}

theorem Reach.trans {c c' : Config E R σ α} (h : S.Reach c) (hs : ReflTransGen S.Step c c') :
    S.Reach c' := by
  induction hs with
  | refl => exact h
  | tail _ hstep ih => exact ih.step hstep

/-- The environment may move any number of times. -/
theorem Reach.env {s s' : σ} {p : Option (Prog E R α)} (h : S.Reach ⟨s, p⟩)
    (hs : ReflTransGen S.env s s') : S.Reach ⟨s', p⟩ := by
  induction hs with
  | refl => exact h
  | tail _ he ih => exact ih.step (.env he)

theorem Step.of_restrict {okCall : (e : E) → σ → R e → σ → Prop} {okEnv : σ → σ → Prop}
    {c c' : Config E R σ α} (h : (S.restrict okCall okEnv).Step c c') : S.Step c c' := by
  cases h with
  | env he => exact .env he.1
  | start hm hs => exact .start hm hs
  | call r he => exact .call r he.1
  | stop => exact .stop

theorem Reach.of_restrict {okCall : (e : E) → σ → R e → σ → Prop} {okEnv : σ → σ → Prop}
    {c : Config E R σ α} (h : (S.restrict okCall okEnv).Reach c) : S.Reach c := by
  induction h with
  | init hi => exact .init hi
  | step _ hs ih => exact ih.step hs.of_restrict

/-! ## Runs of one program -/

/-- `S.Runs p s a s'`: started in `s`, with any moves of the environment in between, `p`
returns `a`, and the state is then `s'`. -/
inductive Runs (S : System E R σ α) : Prog E R α → σ → α → σ → Prop
  | ret {a : α} {s : σ} : S.Runs (.ret a) s a s
  | env {p : Prog E R α} {s s₁ s' : σ} {a : α} :
      S.env s s₁ → S.Runs p s₁ a s' → S.Runs p s a s'
  | call {e : E} {k : R e → Prog E R α} {s s₁ s' : σ} {a : α} {r : R e} :
      S.exec e s r s₁ → S.Runs (k r) s₁ a s' → S.Runs (.call e k) s a s'

theorem Runs.after {p : Prog E R α} {s s₁ s' : σ} {a : α} (h : S.Runs p s₁ a s')
    (henv : ReflTransGen S.env s s₁) : S.Runs p s a s' := by
  induction henv using ReflTransGen.head_induction_on with
  | refl => exact h
  | head he _ ih => exact .env he ih

/-- A system that can do more has more runs. -/
theorem Runs.mono {S' : System E R σ α} {p : Prog E R α} {s s' : σ} {a : α}
    (h : S.Runs p s a s') (hexec : ∀ e s r s', S.exec e s r s' → S'.exec e s r s')
    (henv : ∀ s s', S.env s s' → S'.env s s') : S'.Runs p s a s' := by
  induction h with
  | ret => exact .ret
  | env he _ ih => exact .env (henv _ _ he) ih
  | call hex _ ih => exact .call (hexec _ _ _ _ hex) ih

theorem Runs.steps {p : Prog E R α} {s s' : σ} {a : α} (h : S.Runs p s a s') :
    ReflTransGen S.Step ⟨s, some p⟩ ⟨s', some (.ret a)⟩ := by
  induction h with
  | ret => exact .refl
  | env he _ ih => exact .head (.env he) ih
  | call hex _ ih => exact .head (.call _ hex) ih

/-- A program that runs to its end between two others. -/
theorem Reach.run {s s₁ s' : σ} {p : Prog E R α} {a : α} (h : S.Reach ⟨s, none⟩) (hp : S.main p)
    (hst : S.start s s₁) (hr : S.Runs p s₁ a s') : S.Reach ⟨s', none⟩ :=
  ((h.step (.start hp hst)).trans hr.steps).step .stop

/-- A server whose service is allowed by `exec` makes programs run through. -/
theorem Runs.of_serve {serve : (e : E) → σ → R e × σ} {ok : E → σ → Prop}
    (h : ∀ e s, ok e s → S.exec e s (serve e s).1 (serve e s).2) {p : Prog E R α} {s : σ}
    (hp : p.Within serve ok s) : S.Runs p s (p.run serve s).1 (p.run serve s).2 := by
  induction p generalizing s with
  | ret a => exact .ret
  | call e k ih => exact .call (h e s hp.1) (ih _ hp.2)

theorem Runs.of_server {serve : (e : E) → σ → R e × σ}
    (h : ∀ e s, S.exec e s (serve e s).1 (serve e s).2) (p : Prog E R α) (s : σ) :
    S.Runs p s (p.run serve s).1 (p.run serve s).2 :=
  .of_serve (fun e s _ => h e s) (.of_forall (fun _ _ => trivial) p s)

/-- With such a server a program may also be stopped short, after any number of calls. -/
theorem Reach.advance {serve : (e : E) → σ → R e × σ}
    (h : ∀ e s, S.exec e s (serve e s).1 (serve e s).2) (n : Nat) {p : Prog E R α} {s : σ}
    (hr : S.Reach ⟨s, some p⟩) :
    S.Reach ⟨(p.advance serve n s).2, some (p.advance serve n s).1⟩ := by
  induction n generalizing p s with
  | zero => exact hr
  | succ n ih =>
      cases p with
      | ret a => exact hr
      | call e k => exact ih (hr.step (.call _ (h e s)))

end System

/-! ## Contracts -/

/-- An invariant of the state, and what must hold whenever a call is issued. -/
structure Contract (E : Type u) (σ : Type w) where
  inv : σ → Prop
  guar : E → σ → Prop

namespace System

variable (S : System E R σ α) (C : Contract E σ)

/-- `S.Holds C post p s`: whatever the environment does before each call and
whatever the calls answer, `p` started in `s` issues each call in a state meeting
its guarantee, and returns in a state meeting `post`. -/
def Holds {β : Type x} (post : β → σ → Prop) : Prog E R β → σ → Prop
  | .ret a, s => post a s
  | .call e k, s => ∀ s₁, ReflTransGen S.env s s₁ → C.inv s₁ →
      C.guar e s₁ ∧ ∀ r s₂, S.exec e s₁ r s₂ → C.inv s₂ → Holds post (k r) s₂

variable {S C}

theorem holds_bind {β γ : Type x} {post : γ → σ → Prop} {p : Prog E R β} {f : β → Prog E R γ}
    {s : σ} :
    S.Holds C post (p >>= f) s ↔ S.Holds C (fun a s' => S.Holds C post (f a) s') p s := by
  induction p generalizing s with
  | ret a => exact Iff.rfl
  | call e k ih =>
      constructor
      · intro h s₁ henv hinv
        obtain ⟨hg, hk⟩ := h s₁ henv hinv
        exact ⟨hg, fun r s₂ hex hi => (ih r).mp (hk r s₂ hex hi)⟩
      · intro h s₁ henv hinv
        obtain ⟨hg, hk⟩ := h s₁ henv hinv
        exact ⟨hg, fun r s₂ hex hi => (ih r).mpr (hk r s₂ hex hi)⟩

theorem Holds.mono {β : Type x} {post post' : β → σ → Prop} (hpost : ∀ a s, post a s → post' a s)
    {p : Prog E R β} {s : σ} (h : S.Holds C post p s) : S.Holds C post' p s := by
  induction p generalizing s with
  | ret a => exact hpost a s h
  | call e k ih =>
      intro s₁ henv hinv
      obtain ⟨hg, hk⟩ := h s₁ henv hinv
      exact ⟨hg, fun r s₂ hex hi => ih r (hk r s₂ hex hi)⟩

/-- A program not yet finished does not notice what the environment did before its next call. -/
theorem Holds.stable {β : Type x} {post : β → σ → Prop} {e : E} {k : R e → Prog E R β} {s s' : σ}
    (h : S.Holds C post (.call e k) s) (henv : S.env s s') : S.Holds C post (.call e k) s' :=
  fun s₁ h₁ hinv => h s₁ (.head henv h₁) hinv

/-- A program all of whose calls are always allowed meets the contract. -/
theorem holds_of_only {β : Type x} {p : Prog E R β} {s : σ}
    (h : p.Only fun e => ∀ s', C.inv s' → C.guar e s') : S.Holds C (fun _ _ => True) p s := by
  induction p generalizing s with
  | ret a => exact trivial
  | call e k ih =>
      intro s₁ _ hinv
      refine ⟨h e .here s₁ hinv, fun r s₂ _ _ => ih r fun e' he' => ?_⟩
      exact h e' (.later r he')

/-- And so does one whose calls are allowed as long as it is answered as the invariant says. -/
theorem holds_of_meets {β : Type x} {may : (e : E) → R e → Prop} {P : E → Prop} {p : Prog E R β}
    {s : σ} (h : p.Meets may P) (hmay : ∀ e s r s', C.inv s → S.exec e s r s' → may e r)
    (hguar : ∀ e s, P e → C.guar e s) : S.Holds C (fun _ _ => True) p s := by
  induction h generalizing s with
  | ret => exact trivial
  | call he _ ih =>
      intro s₁ _ hinv
      exact ⟨hguar _ s₁ he, fun r s₂ hexec _ => ih r (hmay _ s₁ r s₂ hinv hexec)⟩

/-- What a program is proved to return with, it returns with. -/
theorem Holds.result (hinv : ∀ s, C.inv s) {post : α → σ → Prop}
    (hpost : ∀ a s s', post a s → S.env s s' → post a s') {p : Prog E R α} {s s' : σ} {a : α}
    (h : S.Holds C post p s) (hr : S.Runs p s a s') : post a s' := by
  induction hr with
  | ret => exact h
  | @env p s s₁ _ _ he _ ih =>
      refine ih ?_
      cases p with
      | ret a => exact hpost a s s₁ h he
      | call e k => exact h.stable he
  | @call _ _ s s₁ _ _ r hex _ ih => exact ih ((h s .refl (hinv s)).2 r s₁ hex (hinv s₁))

/-! ## Soundness -/

/-- What it takes for every run to respect the contract. -/
structure Sound (S : System E R σ α) (C : Contract E σ) : Prop where
  init : ∀ s, S.init s → C.inv s
  env : ∀ s s', C.inv s → S.env s s' → C.inv s'
  start : ∀ s s', C.inv s → S.start s s' → C.inv s'
  call : ∀ e s r s', C.inv s → C.guar e s → S.exec e s r s' → C.inv s'
  main : ∀ p s s', S.main p → S.start s s' → C.inv s' → S.Holds C (fun _ _ => True) p s'

/-- What a run keeps: the invariant, and that the program in flight meets the contract. -/
def Kept (S : System E R σ α) (C : Contract E σ) (c : Config E R σ α) : Prop :=
  C.inv c.state ∧ ∀ p, c.running = some p → S.Holds C (fun _ _ => True) p c.state

theorem Kept.step (hS : Sound S C) {c c' : Config E R σ α} (h : Kept S C c) (hs : S.Step c c') :
    Kept S C c' := by
  obtain ⟨hinv, hrun⟩ := h
  cases hs with
  | env he =>
      refine ⟨hS.env _ _ hinv he, ?_⟩
      intro p hp
      have hold := hrun p hp
      cases p with
      | ret a => exact trivial
      | call e k => exact hold.stable he
  | start hm hst =>
      have hinv' := hS.start _ _ hinv hst
      refine ⟨hinv', ?_⟩
      intro p hp
      cases hp
      exact hS.main _ _ _ hm hst hinv'
  | call r hex =>
      obtain ⟨hg, hk⟩ := hrun _ rfl _ .refl hinv
      have hinv' := hS.call _ _ _ _ hinv hg hex
      refine ⟨hinv', ?_⟩
      intro p hp
      cases hp
      exact hk _ _ hex hinv'
  | stop => exact ⟨hinv, fun p hp => nomatch hp⟩

theorem Reach.kept (hS : Sound S C) {c : Config E R σ α} (h : S.Reach c) : Kept S C c := by
  induction h with
  | init hi => exact ⟨hS.init _ hi, fun p hp => nomatch hp⟩
  | step _ hs ih => exact ih.step hS hs

/-- In every run the invariant holds. -/
theorem Reach.inv (hS : Sound S C) {c : Config E R σ α} (h : S.Reach c) : C.inv c.state :=
  (h.kept hS).1

/-- In every run, a call about to be issued meets its guarantee. -/
theorem Reach.guarded (hS : Sound S C) {c : Config E R σ α} (h : S.Reach c) {e : E}
    (he : c.Issues e) : C.guar e c.state := by
  obtain ⟨k, hk⟩ := he
  exact ((h.kept hS).2 _ hk c.state .refl (h.kept hS).1).1

theorem Holds.restrict {okCall : (e : E) → σ → R e → σ → Prop} {okEnv : σ → σ → Prop}
    {β : Type x} {post : β → σ → Prop} {p : Prog E R β} {s : σ} (h : S.Holds C post p s) :
    (S.restrict okCall okEnv).Holds C post p s := by
  induction p generalizing s with
  | ret a => exact h
  | call e k ih =>
      intro s₁ henv hinv
      have henv' : ReflTransGen S.env s s₁ :=
        ReflTransGen.mono (fun _ _ he => he.1) s s₁ henv
      obtain ⟨hg, hk⟩ := h s₁ henv' hinv
      exact ⟨hg, fun r s₂ hex hi => ih r (hk r s₂ hex.1 hi)⟩

/-- A sound system stays sound when its runs are restricted. -/
theorem Sound.restrict {okCall : (e : E) → σ → R e → σ → Prop} {okEnv : σ → σ → Prop}
    (h : Sound S C) : Sound (S.restrict okCall okEnv) C where
  init := h.init
  env s s' hinv he := h.env s s' hinv he.1
  start := h.start
  call e s r s' hinv hg hex := h.call e s r s' hinv hg hex.1
  main p s s' hp hst hinv := (h.main p s s' hp hst hinv).restrict

/-- What every move of a sound system preserves; the call case may use the guarantee
of the call, every case the invariant. -/
structure Preserved (S : System E R σ α) (C : Contract E σ) (J : σ → Prop) : Prop where
  env : ∀ s s', C.inv s → J s → S.env s s' → J s'
  start : ∀ s s', C.inv s → J s → S.start s s' → J s'
  call : ∀ e s r s', C.inv s → J s → C.guar e s → S.exec e s r s' → J s'

theorem Preserved.step (hS : Sound S C) {J : σ → Prop} (hJ : Preserved S C J)
    {c c' : Config E R σ α} (hr : S.Reach c) (h : J c.state) (hs : S.Step c c') : J c'.state := by
  have hinv := hr.inv hS
  cases hs with
  | env he => exact hJ.env _ _ hinv h he
  | start _ hst => exact hJ.start _ _ hinv h hst
  | call r hex => exact hJ.call _ _ r _ hinv h (hr.guarded hS ⟨_, rfl⟩) hex
  | stop => exact h

/-- Induction over the states of a run of a sound system. -/
theorem Preserved.reach (hS : Sound S C) {J : σ → Prop} (hJ : Preserved S C J)
    (hinit : ∀ s, S.init s → J s) {c : Config E R σ α} (h : S.Reach c) : J c.state := by
  induction h with
  | init hi => exact hinit _ hi
  | step hr hs ih => exact hJ.step hS hr ih hs

/-- Induction over the rest of a run of a sound system. -/
theorem Preserved.steps (hS : Sound S C) {J : σ → Prop} (hJ : Preserved S C J)
    {c c' : Config E R σ α} (hr : S.Reach c) (h : J c.state) (hs : ReflTransGen S.Step c c') :
    J c'.state := by
  induction hs with
  | refl => exact h
  | tail hs hstep ih => exact hJ.step hS (hr.trans hs) ih hstep

end System

end Concur

/-
# `BranchDB.Operator.Finalizer` — the finalizer protects the resources of a CR

From the first CreateClone or Start for a CR on, the CR stays in the API server with
the cleanup finalizer, until one Reconcile has stopped the database and deleted the
clone.  The argument is over the log and needs three facts of `Guar`: those calls are
made only while the CR is stored and protected; every write but the last one of the
deletion flow leaves it protected; that one is made only after the cleanup.
-/
import BranchDB.Operator.Healthy

namespace BranchDB.Operator

open Concur

variable {S : Setting}

/-- Once something was created for `u`, its CR is protected or was cleaned up. -/
def Guarded (u : Nat) (w : World) : Prop :=
  (∃ e ∈ w.log, e.Invokes u) → Alive u w ∨ ∃ run, CleanedIn run u w.log

/-! ## What a write does to a protected CR -/

theorem Alive.statusUpdate {u : Nat} {w : World} (h : Alive u w) (hinv : Inv w)
    {v : DatabaseBranch} (hv : v ∈ w.crs.versions) (hprot : v.Protected)
    (st : DatabaseBranchStatus) : Alive u (serveStatusUpdate w { v with status := st }).2 := by
  refine serveStatusUpdate_elim (P := Alive u) (fun _ _ => id) h ?_
  intro cur hacc
  obtain ⟨rfl, hobj⟩ := accept_version hinv hv rfl hacc
  have hnew : DatabaseBranch.Protected { cur with status := st } := hprot
  exact h.replace hobj rfl fun _ => hnew

/-- Adding the finalizer keeps it. -/
theorem Alive.addFinalizer {u : Nat} {w : World} (h : Alive u w) (hinv : Inv w)
    {v : DatabaseBranch} (hv : v ∈ w.crs.versions) : Alive u (serveUpdate w v.addFinalizer).2 := by
  refine serveUpdate_elim (P := Alive u) (fun _ _ => id) h ?_
  intro cur hacc
  obtain ⟨rfl, hobj⟩ := accept_version hinv hv (resourceVersion_addFinalizer v) hacc
  exact h.replace hobj rfl fun _ => DatabaseBranch.protected_addFinalizer

/-- Dropping the finalizer of one CR leaves every other alone. -/
theorem Alive.removeFinalizer {u : Nat} {w : World} (h : Alive u w) (hinv : Inv w)
    {v : DatabaseBranch} (hv : v ∈ w.crs.versions) (hne : v.uid ≠ u) :
    Alive u (serveUpdate w v.removeFinalizer).2 := by
  refine serveUpdate_elim (P := Alive u) (fun _ _ => id) h ?_
  intro cur hacc
  obtain ⟨rfl, hobj⟩ := accept_version hinv hv rfl hacc
  obtain ⟨cur', hcur', hu, -⟩ := h
  rw [hobj, Option.some.injEq] at hcur'
  exact absurd (hcur' ▸ hu) hne

/-- A call leaves a protected CR protected, or is the write that drops the finalizer
of a CR that was cleaned up. -/
theorem Alive.exec {u : Nat} {e : Call} {w w' : World} {r : e.Reply} (h : Alive u w)
    (hinv : Inv w) (hg : Guar e w) (hex : Exec S e w r w') :
    Alive u w' ∨ ((∃ b, e = .client (.update b)) ∧ CleanedIn w.run u w.log) := by
  cases exec_served hex with
  | same hcrs _ => exact Or.inl (h.of_crs hcrs)
  | update b =>
      obtain ⟨v, hv, -, hb⟩ := hg
      rcases hb with ⟨-, rfl⟩ | ⟨-, rfl, hclean⟩
      · exact Or.inl (h.addFinalizer hinv hv)
      · by_cases hu : v.uid = u
        · exact Or.inr ⟨⟨_, rfl⟩, hu ▸ hclean⟩
        · exact Or.inl (h.removeFinalizer hinv hv hu)
  | statusUpdate b =>
      obtain ⟨v, hv, -, st, hw, rfl⟩ := hg
      exact Or.inl (h.statusUpdate hinv hv hw.protected st)
  | delete b =>
      have hlogged : Alive u (w.record (.deleteIssued w.run b w.clock)) := h
      exact Or.inl hlogged.serveDelete

/-! ## The invariant -/

theorem Guarded.exec {u : Nat} {e : Call} {w w' : World} {r : e.Reply} (h : Guarded u w)
    (hinv : Inv w) (hg : Guar e w) (hex : Exec S e w r w') : Guarded u w' := by
  rintro ⟨ev, hev, hin⟩
  rcases exec_grown hex with hlog | ⟨ev', hl, hlog⟩
  · rw [hlog] at hev ⊢
    rcases h ⟨ev, hev, hin⟩ with hal | hclean
    · exact (hal.exec hinv hg hex).imp id fun hc => ⟨_, hc.2⟩
    · exact Or.inr hclean
  · rw [hlog] at hev ⊢
    by_cases hin' : ev'.Invokes u
    · -- a CR is created for only while it is protected, and creating does not change it
      obtain ⟨hh, u', hh', hal, -⟩ := hl.invokes hg hin'
      rw [hh, Option.some.injEq] at hh'
      subst hh'
      refine Or.inl ((hal.exec hinv hg hex).resolve_right ?_)
      rintro ⟨⟨b, rfl⟩, -⟩
      cases hl
      exact hin'
    · rcases List.mem_cons.mp hev with rfl | hev
      · exact absurd hin hin'
      · rcases h ⟨ev, hev, hin⟩ with hal | ⟨run, hclean⟩
        · exact (hal.exec hinv hg hex).imp id fun hc => ⟨_, hc.2.cons hin'⟩
        · exact Or.inr ⟨run, hclean.cons hin'⟩

theorem guarded_preserved (u : Nat) (main : Prog Call Call.Reply Outcome) :
    (system S main).Preserved contract (Guarded u) where
  env w w' _ hJ henv := by
    rintro ⟨ev, hev, hin⟩
    rw [henv.sameRun.log] at hev ⊢
    exact (hJ ⟨ev, hev, hin⟩).imp (·.env henv) id
  start w w' _ hJ hst := by
    cases (show w' = _ from hst)
    exact hJ
  call _ _ _ _ hinv hJ hg hex := hJ.exec hinv hg hex

/-- In every run, a CR something was created for is stored and carries the cleanup
finalizer, unless after that one Reconcile stopped its database and deleted its clone. -/
theorem finalizer_protects {externalHost : String} {c : Config Call Call.Reply World Outcome}
    (hc : (system S (reconcile (reconciler externalHost) S.name)).Reach c) {u : Nat}
    (hu : ∃ e ∈ c.state.log, e.Invokes u) :
    Alive u c.state ∨ ∃ run, CleanedIn run u c.state.log := by
  refine (guarded_preserved u _).reach (reconcile_sound S externalHost) ?_ hc hu
  rintro w hinit ⟨e, he, -⟩
  simp [hinit.log] at he

theorem finalizer_protects_demo :
    Alive 1 (demoReady ⟨"base", 0, "mysql", ""⟩) ∨
      ∃ run, CleanedIn run 1 (demoReady ⟨"base", 0, "mysql", ""⟩).log :=
  finalizer_protects (reach_demoReady _) ⟨.createClone 2 (some 1), by decide, rfl⟩

end BranchDB.Operator

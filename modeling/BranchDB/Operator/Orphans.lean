/-
# `BranchDB.Operator.Orphans` — no clone on the host without its CR

    API server   CR stored, with the cleanup finalizer
                   ▲
    host         filesystem `…/branches/name`

A deployment is on its own if nobody else makes clones of the name, and every DeleteClone is sent
for the database type under which the clones are; somebody may still destroy them.  Then at every
moment, whatever requests were lost, whatever commands failed, however often the operator was
stopped in the middle of a Reconcile, a clone that is on the host belongs to a CR that is stored
and protected (`no_orphans`).

A clone is made only while its CR is protected, and a CR stays protected until one Reconcile has
had its clone deleted.  So whoever has a clone either is protected or was swept, and who was swept
has none.
-/
import BranchDB.Operator.Clones
import BranchDB.Operator.Deployed
import BranchDB.Operator.Finalizer

namespace BranchDB.Operator

open Concur

variable {S : Setting} {externalHost : String} {w w' : World} {d : String}

/-! ## Whose the clones are -/

/-- A call does nothing to the clone in a dataset, or destroys it, or CreateClone makes it for the
CR being handled. -/
theorem exec_clone {e : Call} {r : e.Reply} (hex : Exec S e w r w') (d : String) :
    w'.clones d = w.clones d ∨ w'.clones d = none ∨
      (w'.clones d = some w.handling ∧ w'.log = .createClone w.run w.handling :: w.log ∧
        ∃ dbType snapshot cloneName, e = .volume (.createClone dbType snapshot cloneName)) := by
  cases e with
  | client c =>
      left
      refine congrFun ?_ d
      cases c with
      | get name => cases (show Got w r w' from hex) <;> rfl
      | update b => exact Outcome.elim (P := (·.clones = w.clones)) hex rfl (clones_serveUpdate w b)
      | statusUpdate b =>
          exact Outcome.elim (P := (·.clones = w.clones)) hex rfl (clones_serveStatusUpdate w b)
      | delete b =>
          exact Outcome.elim (P := (·.clones = w.clones)) hex rfl (clones_serveDelete _)
  | now => exact Or.inl (by rw [hex.2])
  | database c =>
      left
      cases c with
      | start | stop =>
          obtain ⟨cluster, rfl⟩ := hex
          rfl
  | k8s c =>
      obtain ⟨cluster, -, rfl⟩ := hex
      exact Or.inl rfl
  | volume c =>
      cases c with
      | createClone dbType snapshot cloneName =>
          obtain ⟨served, hserved, hout⟩ := hex
          refine Outcome.elim (P := fun w' => w'.clones d = w.clones d ∨ w'.clones d = none ∨
            (w'.clones d = some w.handling ∧ w'.log = .createClone w.run w.handling :: w.log ∧ _))
            hout (Or.inl rfl) ?_
          cases hserved with
          | made r hnone =>
              by_cases hd : d = S.dataset dbType
              · subst hd
                exact Or.inr (Or.inr ⟨Function.update_self .., rfl, _, _, _, rfl⟩)
              · exact Or.inl (Function.update_of_ne hd ..)
          | present | failed => exact Or.inl rfl
      | deleteClone dbType cloneName =>
          obtain ⟨served, w₁, hserved, hout, rfl⟩ := hex
          have hsub : w₁.clones d = w.clones d ∨ w₁.clones d = none := by
            refine Outcome.elim (P := fun w₁ => w₁.clones d = w.clones d ∨ w₁.clones d = none)
              hout (Or.inl rfl) ?_
            cases hserved with
            | gone =>
                by_cases hd : d = S.dataset dbType
                · subst hd
                  exact Or.inr (Function.update_self ..)
                · exact Or.inl (Function.update_of_ne hd ..)
            | failed => exact Or.inl rfl
          exact hsub.imp_right Or.inl
      | takeSnapshot | deleteSnapshot | listSnapshots | listClones | gcSnapshots | resetDataset =>
          cases (show w' = w from hex)
          exact Or.inl rfl

/-- Every clone was made for a CR. -/
def Owned (w : World) : Prop :=
  ∀ d, w.clones d ≠ none → ∃ u, w.clones d = some (some u) ∧ ∃ e ∈ w.log, e.Invokes u

theorem Owned.of_sub (h : Owned w) (hclones : ∀ d, w'.clones d = w.clones d ∨ w'.clones d = none)
    (hlog : w.log ⊆ w'.log) : Owned w' := by
  intro d hd
  have hsame : w'.clones d = w.clones d := (hclones d).resolve_right hd
  rw [hsame] at hd ⊢
  obtain ⟨u, hu, e, he, hin⟩ := h d hd
  exact ⟨u, hu, e, hlog he, hin⟩

theorem Owned.exec (h : Owned w) {e : Call} {r : e.Reply} (hg : Guar e w) (hex : Exec S e w r w') :
    Owned w' := by
  have hlog : w.log ⊆ w'.log := by
    rcases exec_grown hex with hlog | ⟨ev, -, hlog⟩
    · rw [hlog]
      exact List.Subset.refl _
    · rw [hlog]
      exact List.subset_cons_self _ _
  intro d hd
  rcases exec_clone hex d with hsame | hnone | ⟨hmade, hcreated, dbType, snapshot, cloneName, rfl⟩
  · rw [hsame] at hd ⊢
    obtain ⟨u, hu, e, he, hin⟩ := h d hd
    exact ⟨u, hu, e, hlog he, hin⟩
  · exact absurd hnone hd
  · obtain ⟨u, hu, -, -⟩ := (show Creating w from hg)
    refine ⟨u, hmade.trans (congrArg some hu), .createClone w.run w.handling, ?_, hu⟩
    rw [hcreated]
    exact List.mem_cons_self

/-- In a run in which DeleteClone reaches the clones, who has a clone is stored and protected. -/
theorem Owned.alive {p : Option (Prog Call Call.Reply Outcome)} (h : Owned w)
    (hc : (reaching S externalHost).Reach ⟨w, p⟩) (hd : w.clones d ≠ none) : ∃ u, Alive u w := by
  obtain ⟨u, hu, hinvoked⟩ := h d hd
  have hguarded : Guarded u w := by
    refine (guarded_preserved u _).reach (reconcile_sound S externalHost) ?_ hc.of_restrict
    rintro w hinit ⟨e, he, -⟩
    simp [hinit.log] at he
  have hfree : CloneFree u w := by
    refine (cloneFree_preserved externalHost u).reach (reconcile_sound S externalHost).restrict
      (fun w hinit => ?_) hc
    have hinit : Initial w := hinit
    refine ⟨fun _ d => hinit.clones d u, ?_⟩
    rintro ⟨run, hev⟩
    simp [hinit.log] at hev
  rcases hguarded hinvoked with halive | ⟨run, hclean⟩
  · exact ⟨u, halive⟩
  · exact absurd hu (hfree.swept hclean.swept d)

/-! ## A deployment on its own -/

namespace Deployment

variable (D : Deployment)

/-- DeleteClone is sent for the dataset in which the clones are. -/
def Aimed : Call → Site → Prop
  | .volume (.deleteClone dbType _), s =>
      ∀ d, s.host.store.filesystem (cloneOf D.name d) ≠ none → d = D.setting.dataset dbType
  | _, _ => True

/-- No clone was made. -/
def NoneMade (s s' : Site) : Prop :=
  ∀ d, s.host.store.filesystem (cloneOf D.name d) = none →
    s'.host.store.filesystem (cloneOf D.name d) = none

/-- The runs that begin without clones, and in which nobody but the operator makes them. -/
def alone (externalHost : String) : System Call Call.Reply Site Outcome where
  init s := (D.system externalHost).init s ∧
    ∀ d, s.host.store.filesystem (cloneOf D.name d) = none
  exec e s r s' := D.Exec e s r s' ∧ D.Aimed e s
  env s s' := D.Env s s' ∧ D.NoneMade s s'
  start := (D.system externalHost).start
  main := (D.system externalHost).main

variable {D}

theorem Aimed.reaches {e : Call} {s : Site} {clones : String → Option (Option Nat)}
    (h : D.Aimed e s) (htracks : Tracks D.name s.host clones) :
    ReachesClones D.setting e (s.world.holding clones) := by
  have hthere : ∀ {u d}, clones d = some (some u) →
      s.host.store.filesystem (cloneOf D.name d) ≠ none := by
    intro u d hd hnone
    rw [(htracks d).mpr hnone] at hd
    cases hd
  cases e with
  | volume c =>
      cases c with
      | deleteClone dbType cloneName => exact fun u d _ hd => h d (hthere hd)
      | takeSnapshot | deleteSnapshot | createClone | listSnapshots | listClones | gcSnapshots
      | resetDataset => exact trivial
  | client | now | database | k8s => exact trivial

theorem owned_found {s s' : Site} {clones : String → Option (Option Nat)}
    (h : Owned (s.world.holding clones)) (htracks : Tracks D.name s.host clones)
    (hmade : D.NoneMade s s') : Owned (s.world.holding (found D.name s'.host clones)) := by
  refine h.of_sub ?_ (List.Subset.refl _)
  intro d
  show found D.name s'.host clones d = clones d ∨ found D.name s'.host clones d = none
  unfold found
  split
  · next hthere =>
    left
    have hbefore : clones d ≠ none := by
      intro hnone
      rw [hmade d ((htracks d).mp hnone)] at hthere
      cases hthere
    obtain ⟨owner, howner⟩ := Option.ne_none_iff_exists'.mp hbefore
    rw [howner]
    rfl
  · exact Or.inr rfl

theorem refines_reaching (D : Deployment) (externalHost : String) :
    (D.alone externalHost).Refines (reaching D.setting externalHost)
      (fun s t => Tells D s t ∧ Owned t) where
  init {s} hinit := by
    obtain ⟨⟨hworld, hlegible⟩, hnone⟩ := hinit
    have hinitial : Initial (s.world.holding fun _ => none) :=
      ⟨hworld.obj, hworld.versions, fun _ _ => nofun, hworld.log⟩
    have htracks : Tracks D.name s.host fun _ => none := fun d => iff_of_true rfl (hnone d)
    exact ⟨_, hinitial, ⟨_, rfl, htracks, hlegible⟩, fun d hd => absurd rfl hd⟩
  exec {e r s s' t} htells hissues hex := by
    obtain ⟨⟨clones, rfl, htold⟩, howned⟩ := htells
    obtain ⟨hex, haimed⟩ := hex
    obtain ⟨k, hreach⟩ := hissues
    have hasks := asks_by_name (S := D.setting) hreach.of_restrict ⟨k, rfl⟩
    obtain ⟨t', hex', htells'⟩ := told_exec hasks htold hex
    have hg := hreach.guarded (reconcile_sound D.setting externalHost).restrict ⟨k, rfl⟩
    exact ⟨t', ⟨hex', haimed.reaches htold.tracks⟩, htells', howned.exec hg hex'⟩
  env {s s' t} htells henv := by
    obtain ⟨⟨clones, rfl, htold⟩, howned⟩ := htells
    obtain ⟨henv, hmade⟩ := henv
    cases henv with
    | @world w' henv =>
        rcases env_holding clones henv with hsame | henv
        · exact ⟨_, .refl, ⟨clones, hsame.symm, htold⟩, howned⟩
        · have howned' : Owned (w'.holding clones) :=
            howned.of_sub (fun _ => Or.inl rfl) (by rw [henv.sameRun.log]; exact List.Subset.refl _)
          exact ⟨_, .single ⟨henv, trivial⟩, ⟨clones, rfl, htold⟩, howned'⟩
    | @host m' hm =>
        have henv := env_found D.setting D.name m' s.world clones
        exact ⟨_, .single ⟨henv, trivial⟩, ⟨_, rfl, tracks_found D.name m' clones, hm⟩,
          owned_found howned htold.tracks hmade⟩
  start {s s' t} htells hstart := by
    obtain ⟨⟨clones, rfl, htold⟩, howned⟩ := htells
    obtain ⟨hworld, hhost⟩ := hstart
    have hworld : s'.world = _ := hworld
    refine ⟨s'.world.holding clones, ?_, ⟨clones, rfl, hhost ▸ htold⟩, ?_⟩
    · rw [hworld]
      rfl
    · rw [hworld]
      exact howned
  main hmain := hmain

end Deployment

/-! ## Main result -/

/-- In a deployment on its own, a clone of the name that is on the host, in whatever dataset,
belongs to a CR that is stored and carries the cleanup finalizer. -/
theorem no_orphans {D : Deployment} {c : Config Call Call.Reply Site Outcome}
    (hc : (D.alone externalHost).Reach c)
    (hthere : c.state.host.store.filesystem (cloneOf D.name d) ≠ none) :
    ∃ b, c.state.world.crs.obj = some b ∧ b.Protected := by
  obtain ⟨t, hreach, ⟨clones, rfl, htold⟩, howned⟩ := (D.refines_reaching externalHost).reach hc
  have hd : clones d ≠ none := fun hnone => hthere ((htold.tracks d).mp hnone)
  obtain ⟨u, b, hobj, -, hprot⟩ := howned.alive hreach hd
  exact ⟨b, hobj, hprot⟩

/-- There is no clone on the host on which a CR was created: no name there ends as theirs do. -/
theorem demoSite_clones (d : String) :
    demoSite.host.store.filesystem (cloneOf "demo" d) = none := by
  have hends : demoSite.host.store.filesystems.all (·.name.toList.getLast? != some 'o') = true := by
    decide +kernel
  have hlast : (cloneOf "demo" d).toList.getLast? = some 'o' := by
    have hsplit : (cloneOf "demo" d).toList = d.toList ++ "/branches/demo".toList := by
      simp [cloneOf, AgentProvider.clonePath]
    rw [hsplit, List.getLast?_append]
    rfl
  refine List.find?_eq_none.mpr ?_
  intro f hf hname
  have hname : f.name = cloneOf "demo" d := of_decide_eq_true hname
  have hne := List.all_eq_true.mp hends f hf
  rw [hname, hlast] at hne
  exact absurd hne (by decide)

/-- A deployment reached with two Reconciles of a CR: there is a clone, and so there is the CR. -/
theorem no_orphans_demo : demoSite.reconciled.reconciled.host.store.filesystem
      (cloneOf "demo" "tank/mysql") ≠ none ∧
    ∃ b, demoSite.reconciled.reconciled.world.crs.obj = some b ∧ b.Protected := by
  have hcreated : (demoDeployment.alone "db.example.com").Reach ⟨demoSite, none⟩ :=
    .step (.init ⟨initial_demoSite, demoSite_clones⟩)
      (.env ⟨.world (.create ⟨"base", 0, "mysql", ""⟩ [] rfl), fun _ h => h⟩)
  have hexec : ∀ e s, Creates e → (demoDeployment.alone "db.example.com").exec e s
      (demoServe e s).1 (demoServe e s).2 := by
    intro e s he
    refine ⟨demoServe_exec e s he, ?_⟩
    cases e with
    | volume c =>
        cases c with
        | createClone => exact trivial
        | takeSnapshot | deleteSnapshot | deleteClone | listSnapshots | listClones | gcSnapshots
        | resetDataset => exact he.elim
    | client | now | database | k8s => exact trivial
  have hruns : ∀ s : Site, (demoDeployment.alone "db.example.com").Reach ⟨s, none⟩ →
      demoReconcile.Within demoServe (fun e _ => Creates e) ⟨s.world.started, s.host⟩ →
      (demoDeployment.alone "db.example.com").Reach ⟨s.reconciled, none⟩ := by
    intro s hs hwithin
    have hstart : (demoDeployment.alone "db.example.com").start s ⟨s.world.started, s.host⟩ :=
      ⟨rfl, rfl⟩
    exact hs.run rfl hstart (.of_serve hexec hwithin)
  have hthere : demoSite.reconciled.reconciled.host.store.filesystem
      (cloneOf "demo" "tank/mysql") ≠ none := by
    decide +kernel
  exact ⟨hthere, no_orphans (hruns _ (hruns _ hcreated creates_demoSite.1) creates_demoSite.2)
    hthere⟩

end BranchDB.Operator

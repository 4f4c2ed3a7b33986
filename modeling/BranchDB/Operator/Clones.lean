/-
# `BranchDB.Operator.Clones` — which clones a branch leaves behind

`handleDeletion` deletes the clone in the dataset that the databaseType of the spec
names at that moment, and is content if there is none.  A clone made earlier, under
another databaseType, stays (`clone_outlives_branch`).  In the runs in which every
DeleteClone goes to the dataset that holds the clones of its CR, none stays.

The argument follows the log.  `Swept` says that DeleteClone succeeded for a CR and
nothing was created for it since; then it has no clone.  Once its finalizer is dropped
the CR is `Dead`, so nothing is created for it any more.
-/
import BranchDB.Operator.Healthy

namespace BranchDB.Operator

open Concur

variable {S : Setting}

/-! ## Swept -/

/-- DeleteClone succeeded for `u`, and nothing was created for `u` since. -/
def Swept (u : Nat) (log : List Event) : Prop :=
  ∃ run newer older, log = newer ++ .cloneDeleted run (some u) true :: older ∧
    ∀ e ∈ newer, ¬ e.Invokes u

theorem CleanedIn.swept {run u : Nat} {log : List Event} (h : CleanedIn run u log) :
    Swept u log := by
  obtain ⟨newer, older, hlog, hnew, -⟩ := h
  exact ⟨run, newer, older, hlog, hnew⟩

theorem Swept.cons {u : Nat} {log : List Event} {e : Event} (h : Swept u log)
    (he : ¬ e.Invokes u) : Swept u (e :: log) := by
  obtain ⟨run, newer, older, rfl, hnew⟩ := h
  refine ⟨run, e :: newer, older, rfl, ?_⟩
  intro e' he'
  rcases List.mem_cons.mp he' with rfl | he'
  · exact he
  · exact hnew e' he'

theorem Swept.of_cons {u : Nat} {log : List Event} {e : Event} (h : Swept u (e :: log)) :
    (∃ run, e = .cloneDeleted run (some u) true) ∨ (¬ e.Invokes u ∧ Swept u log) := by
  obtain ⟨run, newer, older, hlog, hnew⟩ := h
  cases newer with
  | nil =>
      cases hlog
      exact Or.inl ⟨run, rfl⟩
  | cons e' newer =>
      cases hlog
      refine Or.inr ⟨hnew e List.mem_cons_self, run, newer, older, rfl, fun e' he' => ?_⟩
      exact hnew e' (List.mem_cons_of_mem _ he')

/-! ## What calls do to the clones -/

theorem clones_serveUpdate (w : World) (b : DatabaseBranch) :
    (serveUpdate w b).2.clones = w.clones := by
  obtain ⟨crs, log, h⟩ := serveUpdate_frame w b
  rw [h]

theorem clones_serveStatusUpdate (w : World) (b : DatabaseBranch) :
    (serveStatusUpdate w b).2.clones = w.clones := by
  obtain ⟨crs, log, h⟩ := serveStatusUpdate_frame w b
  rw [h]

theorem clones_serveDelete (w : World) : (serveDelete w).2.clones = w.clones := by
  obtain ⟨crs, h⟩ := serveDelete_frame w
  rw [h]

theorem of_update {f : String → Option (Option Nat)} {d d' : String} {x y : Option (Option Nat)}
    (h : Function.update f d' x d = y) : (d = d' ∧ x = y) ∨ (d ≠ d' ∧ f d = y) := by
  by_cases hd : d = d'
  · subst hd
    exact Or.inl ⟨rfl, by simpa using h⟩
  · exact Or.inr ⟨hd, by simpa [hd] using h⟩

/-- A clone that is there for `u` after a call was there before, or CreateClone made it
for the CR being handled. -/
theorem exec_clones {e : Call} {w w' : World} {r : e.Reply} (hex : Exec S e w r w')
    {d : String} {u : Nat} (hd : w'.clones d = some (some u)) :
    w.clones d = some (some u) ∨
      (w'.log = .createClone w.run w.handling :: w.log ∧ w.handling = some u) := by
  have hkeep : w'.clones = w.clones → w.clones d = some (some u) := fun h => h ▸ hd
  cases e with
  | client c =>
      refine Or.inl (hkeep ?_)
      cases c with
      | get name => cases (show Got w r w' from hex) <;> rfl
      | update b => exact Outcome.elim (P := (·.clones = w.clones)) hex rfl (clones_serveUpdate w b)
      | statusUpdate b =>
          exact Outcome.elim (P := (·.clones = w.clones)) hex rfl (clones_serveStatusUpdate w b)
      | delete b =>
          exact Outcome.elim (P := (·.clones = w.clones)) hex rfl (clones_serveDelete _)
  | now => exact Or.inl (hkeep (by rw [hex.2]))
  | volume c =>
      cases c with
      | createClone dbType snapshot cloneName =>
          obtain ⟨served, hserved, hout⟩ := hex
          refine Outcome.elim (P := fun w' => w'.clones d = some (some u) → _ ∨ w'.log = _ ∧ _)
            hout Or.inl ?_ hd
          cases hserved with
          | made _ _ =>
              intro hd
              rcases of_update hd with ⟨-, hh⟩ | ⟨-, hd⟩
              · exact Or.inr ⟨rfl, Option.some.inj hh⟩
              · exact Or.inl hd
          | present | failed => exact Or.inl
      | deleteClone dbType cloneName =>
          obtain ⟨served, w₁, hserved, hout, rfl⟩ := hex
          refine Or.inl
            (Outcome.elim (P := fun w' => w'.clones d = some (some u) → _) hout id ?_ hd)
          cases hserved with
          | gone =>
              intro hd
              rcases of_update hd with ⟨-, hnone⟩ | ⟨-, hd⟩
              · cases hnone
              · exact hd
          | failed => exact id
      | takeSnapshot | deleteSnapshot | listSnapshots | listClones | gcSnapshots | resetDataset =>
          exact Or.inl (hkeep (congrArg _ (show w' = w from hex)))
  | database c =>
      refine Or.inl (hkeep ?_)
      cases c <;>
      · obtain ⟨cluster, rfl⟩ := hex
        rfl
  | k8s c =>
      obtain ⟨cluster, -, rfl⟩ := hex
      exact Or.inl hd

/-! ## Dead CRs -/

/-- The CR `u` is gone, or is being deleted without the cleanup finalizer. -/
structure Dead (u : Nat) (w : World) : Prop where
  uid_lt : u < w.nextUID
  unprotected : ∀ cur, w.crs.obj = some cur → cur.uid = u →
    cur.deletionTimestamp.isSome ∧ ¬ cur.Protected

theorem Dead.not_alive {u : Nat} {w : World} (h : Dead u w) : ¬ Alive u w := by
  rintro ⟨cur, hcur, huid, hprot⟩
  exact (h.unprotected cur hcur huid).2 hprot

theorem Dead.of_crs {u : Nat} {w w' : World} (h : Dead u w) (hcrs : w'.crs = w.crs)
    (huid : w.nextUID ≤ w'.nextUID) : Dead u w' :=
  ⟨Nat.lt_of_lt_of_le h.uid_lt huid, hcrs ▸ h.unprotected⟩

/-- Replacing the stored CR by one that is being deleted without the finalizer, if it is `u`. -/
theorem dead_replace {u : Nat} {w : World} {cur new : DatabaseBranch} (hlt : u < w.nextUID)
    (hcur : w.crs.obj = some cur)
    (hnew : new.uid = u → new.deletionTimestamp.isSome ∧ ¬ new.Protected) :
    Dead u (w.replace cur new).2 := by
  have hr := w.replaced cur new
  generalize w.replace cur new = served at hr
  cases hr with
  | same he =>
      refine ⟨hlt, ?_⟩
      intro cur' hcur' huid
      rw [hcur, Option.some.injEq] at hcur'
      subst hcur' he
      exact hnew huid
  | removed => exact ⟨hlt, fun _ hcur => nomatch hcur⟩
  | stored =>
      refine ⟨hlt, ?_⟩
      intro cur' hcur' huid
      cases (show some (w.stamped new) = some cur' from hcur')
      exact hnew huid

theorem Dead.serveDelete {u : Nat} {w : World} (h : Dead u w) : Dead u (serveDelete w).2 :=
  serveDelete_elim (P := Dead u) h fun cur hcur =>
    dead_replace h.uid_lt hcur fun huid => ⟨rfl, (h.unprotected cur hcur huid).2⟩

theorem Dead.env {u : Nat} {w w' : World} (h : Dead u w) (he : Env S w w') : Dead u w' := by
  cases he with
  | create spec finalizers hnone =>
      refine ⟨Nat.lt_succ_of_lt h.uid_lt, ?_⟩
      intro cur hcur huid
      cases hcur
      exact absurd huid (Nat.ne_of_gt h.uid_lt)
  | @edit cur spec finalizers hcur _ hsub =>
      refine dead_replace h.uid_lt hcur ?_
      intro huid
      obtain ⟨hdel, hprot⟩ := h.unprotected cur hcur huid
      exact ⟨hdel, fun hp => hprot (hsub hdel hp)⟩
  | delete => exact h.serveDelete
  | tick | agent | cluster => exact h.of_crs rfl (Nat.le_refl _)
  | elsewhere _ huid => exact ⟨Nat.lt_of_lt_of_le h.uid_lt huid, h.unprotected⟩

theorem Dead.serveUpdate {u : Nat} {w : World} {b : DatabaseBranch} (h : Dead u w)
    (hinv : Inv w) (hg : Guar (.client (.update b)) w) : Dead u (serveUpdate w b).2 := by
  obtain ⟨v, hv, -, hb⟩ := hg
  have hrv : b.resourceVersion = v.resourceVersion := by
    rcases hb with ⟨-, rfl⟩ | ⟨-, rfl, -⟩
    · exact resourceVersion_addFinalizer v
    · rfl
  refine serveUpdate_elim (P := Dead u) (fun _ _ hd => hd.of_crs rfl (Nat.le_refl _)) h
    fun cur hacc => ?_
  obtain ⟨rfl, hobj⟩ := accept_version hinv hv hrv hacc
  refine dead_replace h.uid_lt hobj ?_
  intro huid
  obtain ⟨hdel, hprot⟩ := h.unprotected cur hobj huid
  rcases hb with ⟨hnone, -⟩ | ⟨-, rfl, -⟩
  · simp [hnone] at hdel
  · exact ⟨hdel, DatabaseBranch.not_protected_removeFinalizer⟩

theorem Dead.serveStatusUpdate {u : Nat} {w : World} (h : Dead u w) (hinv : Inv w)
    {v : DatabaseBranch} (hv : v ∈ w.crs.versions) (hprot : v.Protected)
    (st : DatabaseBranchStatus) : Dead u (serveStatusUpdate w { v with status := st }).2 := by
  refine serveStatusUpdate_elim (P := Dead u) (fun _ _ hd => hd.of_crs rfl (Nat.le_refl _)) h
    fun cur hacc => ?_
  obtain ⟨rfl, hobj⟩ := accept_version hinv hv rfl hacc
  exact dead_replace h.uid_lt hobj fun huid => absurd hprot (h.unprotected cur hobj huid).2

theorem Dead.exec {u : Nat} {e : Call} {w w' : World} {r : e.Reply} (h : Dead u w)
    (hinv : Inv w) (hg : Guar e w) (hex : Exec S e w r w') : Dead u w' := by
  cases exec_served hex with
  | same hcrs huid => exact h.of_crs hcrs (Nat.le_of_eq huid.symm)
  | update b => exact h.serveUpdate hinv hg
  | statusUpdate b =>
      obtain ⟨v, hv, -, st, hw, rfl⟩ := hg
      exact h.serveStatusUpdate hinv hv hw.protected st
  | delete b =>
      have hlogged : Dead u (w.record (.deleteIssued w.run b w.clock)) :=
        h.of_crs rfl (Nat.le_refl _)
      exact hlogged.serveDelete

/-- Nothing is created for a dead CR. -/
theorem Dead.not_invokes {u : Nat} {e : Call} {ev : Event} {w : World} (h : Dead u w)
    (hg : Guar e w) (hl : Logged w e ev) : ¬ ev.Invokes u := by
  intro hin
  obtain ⟨hh, u', hh', hal, -⟩ := hl.invokes hg hin
  rw [hh, Option.some.injEq] at hh'
  exact h.not_alive (hh' ▸ hal)

/-- The write that drops the finalizer leaves its CR dead. -/
theorem dead_removeFinalizer {w : World} (hinv : Inv w) {v : DatabaseBranch}
    (hv : v ∈ w.crs.versions) (hdel : v.deletionTimestamp.isSome) {cur : DatabaseBranch}
    (hacc : accept w v.removeFinalizer = .ok cur) :
    Dead v.uid (serveUpdate w v.removeFinalizer).2 := by
  obtain ⟨rfl, hobj⟩ := accept_version hinv hv rfl hacc
  have hrep : Dead cur.uid (w.replace cur { cur with
      spec := cur.removeFinalizer.spec, finalizers := cur.removeFinalizer.finalizers }).2 :=
    dead_replace (hinv.uid_lt cur hv) hobj fun _ =>
      ⟨hdel, DatabaseBranch.not_protected_removeFinalizer⟩
  unfold serveUpdate
  rw [hacc]
  dsimp only
  split
  · exact hrep.of_crs rfl (Nat.le_refl _)
  · exact hrep

/-! ## The invariant -/

/-- What a run keeps of the clones made for `u`. -/
structure CloneFree (u : Nat) (w : World) : Prop where
  swept : Swept u w.log → ∀ d, w.clones d ≠ some (some u)
  released : (∃ run, .finalizerRemoved run u ∈ w.log) → Dead u w ∧ Swept u w.log

theorem Env.clones {w w' : World} (h : Env S w w') {d : String} {u : Nat}
    (hd : w'.clones d = some (some u)) : w.clones d = some (some u) := by
  cases h with
  | @edit cur spec finalizers _ _ _ =>
      obtain ⟨crs, h⟩ := w.replace_frame cur { cur with spec, finalizers }
      rwa [h] at hd
  | delete => rwa [clones_serveDelete] at hd
  | agent hsub => exact hsub d u hd
  | create | tick | elsewhere | cluster => exact hd

/-- DeleteClone is called for the dataset that holds the clones of the CR being handled. -/
def ReachesClones (S : Setting) : Call → World → Prop
  | .volume (.deleteClone dbType _), w =>
      ∀ u d, w.handling = some u → w.clones d = some (some u) → d = S.dataset dbType
  | _, _ => True

/-- A DeleteClone that succeeds where the clones of its CR are leaves none. -/
theorem deleteClone_swept {dbType cloneName : String} {w w' : World} {r : Except GoError Unit}
    {u : Nat} (hex : VolumeExec S (.deleteClone dbType cloneName) w r w') (hr : r.isOk = true)
    (hu : w.handling = some u) (hok : ReachesClones S (.volume (.deleteClone dbType cloneName)) w)
    (d : String) : w'.clones d ≠ some (some u) := by
  intro hd
  obtain ⟨served, w₁, hserved, hout, rfl⟩ := hex
  cases r with
  | error _ => cases hr
  | ok _ =>
      cases Outcome.of_ok hout
      cases hserved
      rcases of_update hd with ⟨-, hnone⟩ | ⟨hne, hd⟩
      · cases hnone
      · exact hne (hok u d hu hd)

theorem CloneFree.swept_exec {u : Nat} {e : Call} {w w' : World} {r : e.Reply}
    (h : CloneFree u w) (hok : ReachesClones S e w) (hex : Exec S e w r w')
    (hsw : Swept u w'.log) (d : String) : w'.clones d ≠ some (some u) := by
  intro hd
  rcases exec_clones hex hd with hold | ⟨hlog, hh⟩
  · rcases exec_grown hex with hlog | ⟨ev, hl, hlog⟩
    · exact h.swept (hlog ▸ hsw) d hold
    · rw [hlog] at hsw
      rcases hsw.of_cons with ⟨run, rfl⟩ | ⟨-, hsw⟩
      · -- the DeleteClone that swept
        generalize hh : some u = handling at hl
        cases hl with
        | @cloneDeleted dbType cloneName _ =>
            have hlog' := (deleteClone_log dbType cloneName hex).2
            rw [hlog] at hlog'
            injection hlog' with hev
            injection hev with _ _ hr
            exact deleteClone_swept hex hr.symm hh.symm hok d hd
      · exact h.swept hsw d hold
  · rw [hlog] at hsw
    rcases hsw.of_cons with ⟨run, hev⟩ | ⟨hin, -⟩
    · cases hev
    · exact hin hh

theorem Logged.of_finalizerRemoved {w : World} {e : Call} {run u : Nat}
    (h : Logged w e (.finalizerRemoved run u)) : ∃ b, e = .client (.update b) := by
  cases h
  exact ⟨_, rfl⟩

/-- Serving the update that drops the finalizer of `u`. -/
theorem CloneFree.released_update {u : Nat} {w : World} {b : DatabaseBranch}
    (h : CloneFree u w) (hinv : Inv w) (hg : Guar (.client (.update b)) w)
    (hrel : ∃ run, .finalizerRemoved run u ∈ (serveUpdate w b).2.log) :
    Dead u (serveUpdate w b).2 ∧ Swept u (serveUpdate w b).2.log := by
  obtain ⟨run, hev⟩ := hrel
  rcases serveUpdate_grown w b with hlog | ⟨ev, hl, hlog⟩
  · rw [hlog] at hev ⊢
    obtain ⟨hdead, hsw⟩ := h.released ⟨run, hev⟩
    exact ⟨hdead.serveUpdate hinv hg, hsw⟩
  · rw [hlog] at hev ⊢
    rcases List.mem_cons.mp hev with rfl | hev
    · cases hl with
      | @finalizerRemoved _ cur hacc _ hnot =>
          obtain ⟨v, hv, -, hb⟩ := hg
          rcases hb with ⟨-, rfl⟩ | ⟨hdel, rfl, hclean⟩
          · exact absurd DatabaseBranch.protected_addFinalizer hnot
          · have hcur : cur = v := (accept_version hinv hv rfl hacc).1
            rw [hcur]
            exact ⟨dead_removeFinalizer hinv hv hdel hacc, hclean.swept.cons id⟩
    · obtain ⟨hdead, hsw⟩ := h.released ⟨run, hev⟩
      exact ⟨hdead.serveUpdate hinv hg, hsw.cons (hdead.not_invokes hg hl)⟩

theorem CloneFree.released_exec {u : Nat} {e : Call} {w w' : World} {r : e.Reply}
    (h : CloneFree u w) (hinv : Inv w) (hg : Guar e w) (hex : Exec S e w r w')
    (hrel : ∃ run, .finalizerRemoved run u ∈ w'.log) : Dead u w' ∧ Swept u w'.log := by
  have hold : (∃ run, .finalizerRemoved run u ∈ w.log) → Dead u w' ∧ Swept u w'.log := by
    intro hrel
    obtain ⟨hdead, hsw⟩ := h.released hrel
    refine ⟨hdead.exec hinv hg hex, ?_⟩
    rcases exec_grown hex with hlog | ⟨ev, hl, hlog⟩
    · exact hlog ▸ hsw
    · exact hlog ▸ hsw.cons (hdead.not_invokes hg hl)
  obtain ⟨run, hev⟩ := hrel
  rcases exec_grown hex with hlog | ⟨ev, hl, hlog⟩
  · exact hold ⟨run, hlog ▸ hev⟩
  · rw [hlog] at hev
    rcases List.mem_cons.mp hev with rfl | hev'
    · obtain ⟨b, rfl⟩ := hl.of_finalizerRemoved
      refine Outcome.elim hex (P := fun w' => (∃ run, .finalizerRemoved run u ∈ w'.log) →
        Dead u w' ∧ Swept u w'.log) h.released (h.released_update hinv hg) ⟨run, ?_⟩
      rw [hlog]
      exact List.mem_cons_self
    · exact hold ⟨run, hev'⟩

/-! ## Main results -/

/-- The runs in which every DeleteClone reaches the clones of its CR. -/
def reaching (S : Setting) (externalHost : String) : System Call Call.Reply World Outcome :=
  (system S (reconcile (reconciler externalHost) S.name)).restrict
    (fun e w _ _ => ReachesClones S e w) (fun _ _ => True)

theorem cloneFree_preserved (externalHost : String) (u : Nat) :
    (reaching S externalHost).Preserved contract (CloneFree u) where
  env w w' _ hJ henv := by
    have henv : Env S w w' := henv.1
    constructor
    · intro hsw d hd
      rw [henv.sameRun.log] at hsw
      exact hJ.swept hsw d (henv.clones hd)
    · rw [henv.sameRun.log]
      exact fun hrel => ⟨(hJ.released hrel).1.env henv, (hJ.released hrel).2⟩
  start w w' _ hJ hst := by
    cases (show w' = _ from hst)
    exact ⟨hJ.swept, fun hrel => ⟨(hJ.released hrel).1.of_crs rfl (Nat.le_refl _),
      (hJ.released hrel).2⟩⟩
  call e w r w' hinv hJ hg hex :=
    ⟨hJ.swept_exec hex.2 hex.1, hJ.released_exec hinv hg hex.1⟩

/-- In every run in which each DeleteClone is called for the dataset holding the clones of
its CR, a CR whose finalizer was dropped leaves no clone in any dataset. -/
theorem no_clone_outlives {externalHost : String} {c : Config Call Call.Reply World Outcome}
    (hc : (reaching S externalHost).Reach c) {run u : Nat}
    (hrel : .finalizerRemoved run u ∈ c.state.log) (d : String) :
    c.state.clones d ≠ some (some u) := by
  have hsound : (reaching S externalHost).Sound contract :=
    (reconcile_sound S externalHost).restrict
  have hJ : CloneFree u c.state := by
    refine (cloneFree_preserved externalHost u).reach hsound (fun w hinit => ?_) hc
    have hinit : Initial w := hinit
    refine ⟨fun _ d => hinit.clones d u, ?_⟩
    rintro ⟨run, hev⟩
    simp [hinit.log] at hev
  exact hJ.swept (hJ.released ⟨run, hrel⟩).2 d

/-- The state after a user edited the spec. -/
def edited (spec : DatabaseBranchSpec) (w : World) : World :=
  match w.crs.obj with
  | some cur => (w.replace cur { cur with spec }).2
  | none => w

theorem env_edited (spec : DatabaseBranchSpec) (w : World) :
    Relation.ReflTransGen (Env S) w (edited spec w) := by
  unfold edited
  cases hcur : w.crs.obj with
  | none => exact .refl
  | some cur => exact .single (.edit spec cur.finalizers hcur id fun _ => List.Subset.refl _)

/-- The state after `demo`, a Ready MySQL branch, was edited to have the type `dbType` and
deleted. -/
def demoDoomed (dbType : String) : World :=
  (serveDelete (edited ⟨"base", 0, dbType, ""⟩ (demoReady ⟨"base", 0, "mysql", ""⟩))).2

/-- ... and cleaned up. -/
def demoDeleted (dbType : String) : World :=
  reconciled demo demoReconcile (demoDoomed dbType)

theorem reach_demoDeleted (dbType : String) :
    (system demo demoReconcile).Reach ⟨demoDeleted dbType, none⟩ :=
  reach_reconciled (((reach_demoReady _).env (env_edited _ _)).step (.env .delete))

/-- Its clone is in the dataset of its first type. -/
theorem demoDoomed_clones {d : String} {u : Nat}
    (hd : (demoDoomed "mysql").clones d = some (some u)) : d = "mysql" := by
  have hclones : (demoDoomed "mysql").clones =
      Function.update (fun _ => none) "mysql" (some (some 1)) := rfl
  rw [hclones] at hd
  rcases of_update hd with ⟨h, -⟩ | ⟨-, hnone⟩
  · exact h
  · cases hnone

theorem reaching_demoDeleted :
    (reaching demo "db.example.com").Reach ⟨demoDeleted "mysql", none⟩ := by
  have henv : ∀ w w', Env demo w w' → (reaching demo "db.example.com").env w w' :=
    fun _ _ he => ⟨he, trivial⟩
  have hcreated : (reaching demo "db.example.com").Reach
      ⟨created demo ⟨"base", 0, "mysql", ""⟩ .fresh, none⟩ :=
    .step (.init World.initial_fresh) (.env (henv _ _ (.create _ [] rfl)))
  have hready : (reaching demo "db.example.com").Reach
      ⟨demoReady ⟨"base", 0, "mysql", ""⟩, none⟩ := by
    refine reach_reconciled_restrict ?_ (reach_reconciled_restrict ?_ hcreated)
    · exact ⟨trivial, trivial, trivial, trivial, trivial, trivial⟩
    · exact ⟨trivial, trivial, trivial⟩
  have hdoomed : (reaching demo "db.example.com").Reach ⟨demoDoomed "mysql", none⟩ :=
    (hready.env (Relation.ReflTransGen.mono henv _ _ (env_edited _ _))).step
      (.env (henv _ _ .delete))
  refine reach_reconciled_restrict ⟨trivial, trivial, trivial, ?_, trivial, trivial⟩ hdoomed
  intro u d _ hd
  exact demoDoomed_clones (show (demoDoomed "mysql").clones d = some (some u) from hd)

theorem no_clone_outlives_demo : (demoDeleted "mysql").clones "mysql" ≠ some (some 1) :=
  no_clone_outlives reaching_demoDeleted
    (show Event.finalizerRemoved 3 1 ∈ (demoDeleted "mysql").log by decide) "mysql"

/-- A branch whose databaseType was edited is gone, and its clone is not. -/
theorem clone_outlives_branch : ∃ c : Config Call Call.Reply World Outcome,
    (system demo demoReconcile).Reach c ∧ c.state.crs.obj = none ∧
      .finalizerRemoved 3 1 ∈ c.state.log ∧ c.state.clones "mysql" = some (some 1) :=
  ⟨_, reach_demoDeleted "postgres", by decide, by decide, by decide⟩

end BranchDB.Operator

/-
# `BranchDB.Operator.Teardown` — storage is destroyed under a stopped database

The reconciler run with the k8sdatabase provider, so that Stop is five Delete calls to
the cluster.  `handleDeletion` goes on to DeleteClone, and then drops the finalizer,
when Stop reports success; Stop always does.  So the objects of the branch are gone by
then in the runs in which each Delete takes its object away (`torn_down`), and not in
general: after Deletes that failed the Pod is still there (`destroyed_under_pod`).
-/
import BranchDB.K8sDatabase.Start
import BranchDB.Operator.Healthy

namespace BranchDB.Operator

open Concur Relation

variable {S : Setting} {externalHost : String} {imageOverrides : List (String × String)}

/-- The provider, with its client calls among those of the reconciler. -/
def clusterProvider (S : Setting) (imageOverrides : List (String × String)) :
    K8s.Provider (Prog Call Call.Reply) where
  client c := Prog.perform (Call.k8s c)
  ns := S.ns
  imageOverrides := imageOverrides

/-- The reconciler with the k8sdatabase provider. -/
def clusterReconciler (S : Setting) (externalHost : String)
    (imageOverrides : List (String × String)) : DatabaseBranchReconciler (Prog Call Call.Reply) :=
  { reconciler externalHost with
    databaseProvider := (clusterProvider S imageOverrides).database }

/-- Its runs. -/
def clusterSystem (S : Setting) (externalHost : String) (imageOverrides : List (String × String)) :
    System Call Call.Reply World Outcome :=
  system S (reconcile (clusterReconciler S externalHost imageOverrides) S.name)

/-- No Delete leaves an object behind. -/
def TakesAway (e : Call) (w' : World) : Prop := ∀ k, e = .k8s (.delete k) → w'.cluster k = none

/-- The runs in which every Delete of a cluster object takes it away. -/
def takingAway (S : Setting) (externalHost : String) (imageOverrides : List (String × String)) :
    System Call Call.Reply World Outcome :=
  (clusterSystem S externalHost imageOverrides).restrict
    (fun e _ _ w' => TakesAway e w') (fun _ _ => True)

/-! ## The name of the branch -/

/-- Every CR ever stored has the name the run is about. -/
structure Named (S : Setting) (w : World) : Prop where
  obj : ∀ cur, w.crs.obj = some cur → cur.name = S.name
  versions : ∀ v ∈ w.crs.versions, v.name = S.name

theorem Named.replace {w : World} {cur new : DatabaseBranch} (h : Named S w)
    (hnew : new.name = S.name) : Named S (w.replace cur new).2 := by
  have hr := w.replaced cur new
  generalize w.replace cur new = served at hr
  cases hr with
  | same => exact h
  | removed => exact ⟨fun _ hcur => (nomatch hcur), h.versions⟩
  | stored =>
      constructor
      · intro cur' hcur'
        cases (show some (w.stamped new) = some cur' from hcur')
        exact hnew
      · intro v hv
        rcases List.mem_cons.mp hv with rfl | hv
        · exact hnew
        · exact h.versions v hv

theorem Named.serveDelete {w : World} (h : Named S w) : Named S (serveDelete w).2 :=
  serveDelete_elim (P := Named S) h fun cur hcur => h.replace (h.obj cur hcur)

theorem Named.of_crs {w w' : World} (h : Named S w) (hcrs : w'.crs = w.crs) : Named S w' :=
  ⟨hcrs ▸ h.obj, hcrs ▸ h.versions⟩

theorem Named.env {w w' : World} (h : Named S w) (he : Env S w w') : Named S w' := by
  cases he with
  | create spec finalizers _ =>
      constructor
      · intro cur hcur
        cases hcur
        rfl
      · intro v hv
        rcases List.mem_cons.mp hv with rfl | hv
        · rfl
        · exact h.versions v hv
  | @edit cur spec finalizers hcur _ _ =>
      have hname : cur.name = S.name := h.obj cur hcur
      exact h.replace hname
  | delete => exact h.serveDelete
  | elsewhere => exact ⟨h.obj, h.versions⟩
  | tick | agent | cluster => exact h.of_crs rfl

theorem Named.exec {e : Call} {w w' : World} {r : e.Reply} (h : Named S w)
    (hex : Exec S e w r w') : Named S w' := by
  cases exec_served hex with
  | same hcrs _ => exact h.of_crs hcrs
  | update b =>
      refine serveUpdate_elim (P := Named S) (fun _ _ hn => hn.of_crs rfl) h ?_
      intro cur hacc
      have hname : cur.name = S.name := h.obj cur (accept_ok hacc).1
      exact h.replace hname
  | statusUpdate b =>
      refine serveStatusUpdate_elim (P := Named S) (fun _ _ hn => hn.of_crs rfl) h
        fun cur hacc => ?_
      have hname : cur.name = S.name := h.obj cur (accept_ok hacc).1
      exact h.replace hname
  | delete b =>
      have hlogged : Named S (w.record (.deleteIssued w.run b w.clock)) := h.of_crs rfl
      exact hlogged.serveDelete

/-- The version a status write answers is one of that name. -/
theorem Named.statusUpdate_ok {w w' : World} {b c : DatabaseBranch} (h : Named S w)
    (hserved : serveStatusUpdate w b = (.ok c, w')) : c.name = S.name := by
  unfold serveStatusUpdate at hserved
  split at hserved
  · cases hserved
  · next cur hacc =>
    simp only [Prod.mk.injEq, Except.ok.injEq] at hserved
    rw [← hserved.1, w.replace_fst]
    exact h.obj cur (accept_ok hacc).1

/-! ## Objects that are gone -/

/-- Nothing is stored under the keys `ks`. -/
def Gone (ks : List K8s.Key) (w : World) : Prop := ∀ k ∈ ks, w.cluster k = none

/-- What is gone does not come back by itself. -/
theorem Env.cluster_none {w w' : World} (h : Env S w w') {k : K8s.Key}
    (hk : k ∈ K8s.branchKeys S.ns S.name) (hnone : w.cluster k = none) : w'.cluster k = none := by
  cases h with
  | cluster hamb =>
      have hsurv := hamb.survives (fun hn => hn hk)
      rw [hnone] at hsurv
      exact hsurv.of_none
  | @edit cur spec finalizers _ _ _ =>
      obtain ⟨crs, h⟩ := w.replace_frame cur { cur with spec, finalizers }
      rwa [h]
  | delete =>
      obtain ⟨crs, h⟩ := serveDelete_frame w
      rwa [h]
  | create | tick | elsewhere | agent => exact hnone

theorem Gone.later {ks : List K8s.Key} {w w' : World} (h : Gone ks w)
    (hks : ks ⊆ K8s.branchKeys S.ns S.name) (henv : ReflTransGen (takingAway S externalHost
      imageOverrides).env w w') : Gone ks w' := by
  induction henv with
  | refl => exact h
  | tail _ he ih => exact fun k hk => Env.cluster_none he.1 (hks hk) (ih k hk)

/-- A Delete that takes its object away leaves what was gone as it is. -/
theorem Gone.delete {ks : List K8s.Key} {k : K8s.Key} {w w' : World} {r : Except GoError Unit}
    (h : Gone ks w)
    (hex : (takingAway S externalHost imageOverrides).exec (.k8s (.delete k)) w r w') :
    Gone (k :: ks) w' := by
  obtain ⟨⟨cluster, ⟨served, hserved, hout⟩, rfl⟩, htaken⟩ := hex
  have hother : ∀ j, j ≠ k → cluster j = w.cluster j := by
    intro j hj
    refine Outcome.elim (P := fun c => c j = w.cluster j) hout rfl ?_
    cases hserved with
    | notFound => rfl
    | removed | marked => simp [hj]
  intro j hj
  by_cases he : j = k
  · rw [he]
    exact htaken k rfl
  · exact (hother j he).trans (h j ((List.mem_cons.mp hj).resolve_left he))

/-! ## The contract -/

/-- The calls that destroy the storage of a branch or let its CR go. -/
def Destroys : Call → Prop
  | .volume (.deleteClone ..) => True
  | .client (.update b) => ¬ b.Protected
  | _ => False

/-- Storage is destroyed, and the CR let go, when the objects are gone. -/
def teardown (S : Setting) : Contract Call World where
  inv := Named S
  guar e w := Destroys e → Gone (K8s.branchKeys S.ns S.name) w

/-- The calls that destroy nothing need nothing. -/
theorem holds_harmless {p : Prog Call Call.Reply Outcome} {w : World}
    (h : p.Only fun e => ¬ Destroys e) :
    (takingAway S externalHost imageOverrides).Holds (teardown S) (fun _ _ => True) p w :=
  System.holds_of_only (h.mono fun _ he _ _ hd => absurd hd he)

/-! ## The flows that destroy nothing -/

theorem only_setError (b : DatabaseBranch) (err : GoError) :
    (setError (clusterReconciler S externalHost imageOverrides) b err).Only
      fun e => ¬ Destroys e :=
  .bind (.perform id) fun _ => .ret

theorem only_recordReady (b : DatabaseBranch) (dbInfo : BranchEndpoint) :
    (recordReady (clusterReconciler S externalHost imageOverrides) b dbInfo).Only
      fun e => ¬ Destroys e := by
  refine .bind ?_ fun expires => .bind (.perform id) fun r => ?_
  · unfold expiresAt
    split
    · exact .bind (.perform id) fun _ => .ret
    · exact .ret
  · rcases r with err | _ <;> exact .ret

theorem only_createBranch (b : DatabaseBranch) :
    (createBranch (clusterReconciler S externalHost imageOverrides) b).Only
      fun e => ¬ Destroys e := by
  refine .bind (.perform id) ?_
  intro r
  rcases r with err | c
  · exact .ret
  refine .bind (.perform id) ?_
  intro r
  rcases r with err | vol
  · exact only_setError _ _
  refine .bind (K8s.only_start (fun _ _ _ _ => .perform id) fun _ => .perform id) ?_
  intro r
  rcases r with err | dbInfo
  · exact only_setError _ _
  · exact only_recordReady _ _

theorem only_reconcileLive (b : DatabaseBranch) :
    (reconcileLive (clusterReconciler S externalHost imageOverrides) b).Only
      fun e => ¬ Destroys e := by
  refine .bind ?_ fun yes => ?_
  · unfold expired
    split
    · split
      · exact .bind (.perform id) fun _ => .ret
      · exact .ret
    · exact .ret
  · split
    · refine .bind (.perform id) ?_
      intro r
      rcases r with err | _ <;> exact .ret
    · split
      · refine .bind (.perform fun hd => hd DatabaseBranch.protected_addFinalizer) ?_
        intro r
        rcases r with err | _ <;> exact .ret
      · split
        · exact .ret
        · exact only_createBranch b

/-! ## The flow that does -/

variable {w : World}

theorem holds_delete {β : Type} {post : β → World → Prop} {ks : List K8s.Key} {k : K8s.Key}
    {f : Except GoError Unit → Prog Call Call.Reply β} (hw : Gone ks w)
    (hks : ks ⊆ K8s.branchKeys S.ns S.name)
    (hf : ∀ r w', Gone (k :: ks) w' →
      (takingAway S externalHost imageOverrides).Holds (teardown S) post (f r) w') :
    (takingAway S externalHost imageOverrides).Holds (teardown S) post
      (Prog.perform (Call.k8s (.delete k)) >>= f) w := by
  intro w₁ henv _
  refine ⟨False.elim, ?_⟩
  intro r w₂ hex _
  exact hf r w₂ ((hw.later hks henv).delete hex)

/-- After Stop the objects are gone, and it says so. -/
theorem holds_stop (S : Setting) (externalHost : String) (imageOverrides : List (String × String))
    (w : World) :
    (takingAway S externalHost imageOverrides).Holds (teardown S)
      (fun _ w' => Gone (K8s.branchKeys S.ns S.name) w')
      (K8s.stop (clusterProvider S imageOverrides) S.name) w := by
  have hnil : Gone [] w := fun _ hk => nomatch hk
  refine holds_delete hnil (by simp) ?_
  intro _ _ h
  refine holds_delete h (by simp [K8s.branchKeys, clusterProvider]) ?_
  intro _ _ h
  refine holds_delete h (by simp [K8s.branchKeys, clusterProvider]) ?_
  intro _ _ h
  refine holds_delete h (by simp [K8s.branchKeys, clusterProvider]) ?_
  intro _ _ h
  refine holds_delete h (by simp [K8s.branchKeys, clusterProvider]) ?_
  intro _ _ h k hk
  refine h k ?_
  simp only [K8s.branchKeys, List.mem_cons, List.not_mem_nil, or_false] at hk
  simp only [clusterProvider, List.mem_cons, List.not_mem_nil, or_false]
  tauto

theorem holds_release {b : DatabaseBranch} (hgone : Gone (K8s.branchKeys S.ns S.name) w) :
    (takingAway S externalHost imageOverrides).Holds (teardown S) (fun _ _ => True)
      (releaseBranch (clusterReconciler S externalHost imageOverrides) b) w := by
  intro w₁ henv _
  refine ⟨fun _ => hgone.later (List.Subset.refl _) henv, ?_⟩
  intro r w₂ _ _
  rcases r with err | _ <;> exact trivial

theorem deleteClone_cluster (dbType cloneName : String) {w' : World} {r : Except GoError Unit}
    (h : VolumeExec S (.deleteClone dbType cloneName) w r w') : w'.cluster = w.cluster := by
  obtain ⟨served, w₁, hserved, hout, rfl⟩ := h
  refine Outcome.elim (P := (·.cluster = w.cluster)) hout rfl ?_
  cases hserved <;> rfl

theorem holds_destroy {b : DatabaseBranch} (hgone : Gone (K8s.branchKeys S.ns S.name) w) :
    (takingAway S externalHost imageOverrides).Holds (teardown S) (fun _ _ => True)
      (destroyClone (clusterReconciler S externalHost imageOverrides) b) w := by
  intro w₁ henv _
  have hgone₁ := hgone.later (List.Subset.refl _) henv
  refine ⟨fun _ => hgone₁, ?_⟩
  intro r w₂ hex _
  have hcluster := deleteClone_cluster b.spec.databaseType b.name hex.1
  have hgone₂ : Gone (K8s.branchKeys S.ns S.name) w₂ := by
    intro k hk
    rw [hcluster]
    exact hgone₁ k hk
  rcases r with err | _
  · exact holds_harmless (only_setError b _)
  · exact holds_release hgone₂

theorem holds_teardown {b : DatabaseBranch} :
    (takingAway S externalHost imageOverrides).Holds (teardown S) (fun _ _ => True)
      (handleDeletion (clusterReconciler S externalHost imageOverrides) b) w := by
  unfold handleDeletion
  by_cases hfin : b.containsFinalizer = true
  · simp only [hfin]
    intro w₁ _ hnamed
    refine ⟨False.elim, ?_⟩
    intro r w₂ hex _
    rcases r with err | c
    · exact trivial
    · have hname : c.name = S.name := Named.statusUpdate_ok hnamed (Outcome.of_ok hex.1)
      show (takingAway S externalHost imageOverrides).Holds (teardown S) (fun _ _ => True)
        (stopDatabase (clusterReconciler S externalHost imageOverrides) c) w₂
      refine System.holds_bind.mpr ?_
      show (takingAway S externalHost imageOverrides).Holds (teardown S) _
        (K8s.stop (clusterProvider S imageOverrides) c.name) w₂
      rw [hname]
      refine (holds_stop S externalHost imageOverrides w₂).mono ?_
      intro r w' hgone
      rcases r with err | _
      · exact holds_harmless (only_setError c _)
      · exact holds_destroy hgone
  · simp only [hfin]
    exact trivial

theorem teardown_sound (S : Setting) (externalHost : String)
    (imageOverrides : List (String × String)) :
    (takingAway S externalHost imageOverrides).Sound (teardown S) where
  init w hinit := by
    have hinit : Initial w := hinit
    constructor <;> simp [hinit.obj, hinit.versions]
  env _ _ hinv henv := Named.env hinv henv.1
  start _ _ hinv hst := by
    cases hst
    exact Named.of_crs hinv rfl
  call _ _ _ _ hinv _ hex := Named.exec hinv hex.1
  main p _ w hp _ _ := by
    cases (show p = reconcile (clusterReconciler S externalHost imageOverrides) S.name from hp)
    intro w₁ _ _
    refine ⟨False.elim, ?_⟩
    intro r w₂ hex _
    rcases r with err | b
    · exact trivial
    · show (takingAway S externalHost imageOverrides).Holds (teardown S) (fun _ _ => True)
        (if b.deletionTimestamp.isSome then
          handleDeletion (clusterReconciler S externalHost imageOverrides) b
          else reconcileLive (clusterReconciler S externalHost imageOverrides) b) w₂
      split
      · exact holds_teardown
      · exact holds_harmless (only_reconcileLive b)

/-! ## Main results -/

/-- In every run in which each Delete takes its object away, none of the objects of the
branch exists when its clone is destroyed or its finalizer dropped. -/
theorem torn_down {c : Config Call Call.Reply World Outcome}
    (hc : (takingAway S externalHost imageOverrides).Reach c) {e : Call} (he : c.Issues e)
    (hd : Destroys e) : ∀ k ∈ K8s.branchKeys S.ns S.name, c.state.cluster k = none :=
  hc.guarded (teardown_sound S externalHost imageOverrides) he hd

/-! ## The branch `demo` -/

abbrev demoCluster : Prog Call Call.Reply Outcome :=
  reconcile (clusterReconciler demo "db.example.com" []) demo.name

/-- Like `serve`, except that no Delete reaches the cluster. -/
def serveUndeleted : (e : Call) → World → e.Reply × World
  | .k8s (.delete _), w => (.error ⟨.other, "connection refused"⟩, w)
  | e, w => serve demo e w

/-- The state in which the branch was created, two Reconciles made its objects, and a user
deleted it; a third Reconcile begins. -/
def demoCondemned : World :=
  (serveDelete (reconciled demo demoCluster
    (reconciled demo demoCluster (created demo ⟨"base", 0, "mysql", ""⟩ .fresh)))).2.started

/-- The third Reconcile is about to call DeleteClone. -/
def demoDestroying (server : (e : Call) → World → e.Reply × World) :
    Config Call Call.Reply World Outcome :=
  ⟨(demoCluster.advance server 7 demoCondemned).2,
    some (demoCluster.advance server 7 demoCondemned).1⟩

theorem reach_demoDestroying {T : System Call Call.Reply World Outcome}
    {server : (e : Call) → World → e.Reply × World}
    (hinit : T.init World.fresh) (hmain : T.main demoCluster)
    (hstart : ∀ w, T.start w w.started) (henv : ∀ w w', Env demo w w' → T.env w w')
    (hserve : ∀ e w, T.exec e w (serve demo e w).1 (serve demo e w).2)
    (hserver : ∀ e w, T.exec e w (server e w).1 (server e w).2) :
    T.Reach (demoDestroying server) := by
  have hreconciled : ∀ w, T.Reach ⟨w, none⟩ → T.Reach ⟨reconciled demo demoCluster w, none⟩ :=
    fun w hw => hw.run hmain (hstart w) (.of_server hserve demoCluster w.started)
  have hcreated : T.Reach ⟨created demo ⟨"base", 0, "mysql", ""⟩ .fresh, none⟩ :=
    .step (.init hinit) (.env (henv _ _ (.create _ [] rfl)))
  have hdeleted := (hreconciled _ (hreconciled _ hcreated)).step (.env (henv _ _ .delete))
  exact .advance hserver 7 (hdeleted.step (.start hmain (hstart _)))

theorem serve_takesAway (e : Call) (w : World) : TakesAway e (serve S e w).2 := by
  rintro k rfl
  exact K8s.serve_delete k w.cluster

theorem torn_down_demo :
    (K8s.branchKeys "default" "demo").Forall
      fun k => (demoDestroying (serve demo)).state.cluster k = none := by
  have hserve : ∀ e w, (takingAway demo "db.example.com" []).exec e w (serve demo e w).1
      (serve demo e w).2 := fun e w => ⟨serve_exec e w, serve_takesAway e w⟩
  have hreach : (takingAway demo "db.example.com" []).Reach (demoDestroying (serve demo)) :=
    reach_demoDestroying World.initial_fresh rfl (fun _ => rfl) (fun _ _ he => ⟨he, trivial⟩)
      hserve hserve
  have hissues : (demoDestroying (serve demo)).Issues (.volume (.deleteClone "mysql" "demo")) :=
    ⟨_, rfl⟩
  exact List.forall_iff_forall_mem.mpr (torn_down hreach hissues trivial)

theorem serveUndeleted_exec (e : Call) (w : World) :
    Exec demo e w (serveUndeleted e w).1 (serveUndeleted e w).2 := by
  have hdelete : ∀ k, Exec demo (.k8s (.delete k)) w (.error ⟨.other, "connection refused"⟩) w := by
    intro k
    obtain ⟨served, hserved, -⟩ := K8s.serve_exec (.delete k) w.cluster
    exact ⟨w.cluster, ⟨served, hserved, .dropped rfl⟩, rfl⟩
  unfold serveUndeleted
  split
  · exact hdelete _
  · exact serve_exec _ _

/-- After Deletes that failed, storage is destroyed under a Pod that still exists. -/
theorem destroyed_under_pod : ∃ c : Config Call Call.Reply World Outcome,
    (clusterSystem demo "db.example.com" []).Reach c ∧
      c.Issues (.volume (.deleteClone "mysql" "demo")) ∧
      (c.state.cluster (K8s.podKey "default" "demo")).isSome :=
  ⟨demoDestroying serveUndeleted,
    reach_demoDestroying World.initial_fresh rfl (fun _ => rfl) (fun _ _ => id) serve_exec
      serveUndeleted_exec,
    ⟨_, rfl⟩, by decide⟩

end BranchDB.Operator

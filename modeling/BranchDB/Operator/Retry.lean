/-
# `BranchDB.Operator.Retry` — what a retry writes

A Reconcile that failed is retried after a while, and it is also started whenever the CR has
changed: `SetupWithManager` filters no events.  So a retry that fails as the one before should
leave the CR as it is, or it sets off the next one at once.

It does not.  Before anything is tried the status becomes Creating or Deleting, and after the
failure it becomes Error again: two versions are stored, and the CR looks as before
(`retry_writes`).  Only a retry whose first write is not carried out changes nothing, whatever
else happens meanwhile and whatever the providers answer (`retry_quiet_iff`).
-/
import BranchDB.Concur.Record
import BranchDB.Operator.Healthy

namespace BranchDB.Operator

open Concur Relation

/-! ## Writes -/

def isWrite : Call → Bool
  | .client (.get _) => false
  | .client _ => true
  | _ => false

/-- The API server has no reason to refuse the write, and there is something to be done: the
client's copy is up to date, or the CR to be deleted is not yet marked. -/
def Takes (w : World) : ClientCall → Prop
  | .get _ => False
  | .update b | .statusUpdate b => ∃ cur, accept w b = .ok cur
  | .delete _ => ∃ cur, w.crs.obj = some cur ∧ cur.deletionTimestamp = none

/-- The write reached the API server, which took it. -/
def CarriedOut (ev : Concur.Event Call Call.Reply World) : Prop :=
  ∃ c, ev.call = .client c ∧ Takes ev.before c ∧ ev.after = (serveClient c ev.before).2

/-- No call changes the stored CR. -/
def Quiet (tr : List (Concur.Event Call Call.Reply World)) : Prop :=
  ∀ ev ∈ tr, ev.after.crs.obj = ev.before.crs.obj

/-- There is no first write, or it is not carried out. -/
def FirstWriteFails (tr : List (Concur.Event Call Call.Reply World)) : Prop :=
  ∀ ev, tr.find? (isWrite ·.call) = some ev → ¬ CarriedOut ev

variable {S : Setting} {main : Prog Call Call.Reply Outcome} {externalHost : String}
  {w w' : World} {b cur : DatabaseBranch}

/-- A write that was refused or dropped changes nothing, and its reply is one of `done`. -/
theorem write_cases {β : Type} {served : Except GoError β × World} {r : Except GoError β}
    {takes : Prop} {done : Except GoError β → Prop}
    (h : Concur.Outcome (fun _ => True) w served r w') (herror : ∀ err, done (.error err))
    (hrefused : ¬ takes → served.2 = w ∧ done served.1)
    (hchange : takes → served.2.crs.obj ≠ w.crs.obj) :
    (takes ∧ w' = served.2 ∧ w'.crs.obj ≠ w.crs.obj) ∨
      (¬ (takes ∧ w' = served.2) ∧ w'.crs.obj = w.crs.obj ∧ done r) := by
  by_cases htakes : takes
  · cases h with
    | answered | lost => exact Or.inl ⟨htakes, rfl, hchange htakes⟩
    | dropped => exact Or.inr ⟨fun h => hchange htakes (h.2 ▸ rfl), rfl, herror _⟩
  · obtain ⟨hsame, hdone⟩ := hrefused htakes
    refine Or.inr ⟨fun h => htakes h.1, ?_⟩
    cases h with
    | answered => exact ⟨hsame ▸ rfl, hdone⟩
    | dropped => exact ⟨rfl, herror _⟩
    | lost => exact ⟨hsame ▸ rfl, herror _⟩

theorem replace_obj_ne {new : DatabaseBranch} (hinv : Inv w) (hobj : w.crs.obj = some cur)
    (hne : new ≠ cur) : (w.replace cur new).2.crs.obj ≠ w.crs.obj := by
  rw [World.replace, if_neg hne, hobj]
  split
  · exact nofun
  · intro h
    have hversion : w.crs.next = cur.resourceVersion :=
      congrArg DatabaseBranch.resourceVersion (Option.some.inj h)
    exact Nat.ne_of_gt (hinv.wf.lt cur (hinv.wf.mem cur hobj)) hversion

/-- The stored CR is in Error, or was created since. -/
def Unsettled (w : World) : Prop :=
  ∀ cur, w.crs.obj = some cur → cur.status.phase = .error ∨ cur.status.phase = .unset

theorem Unsettled.replace {new : DatabaseBranch} (h : Unsettled w) (hobj : w.crs.obj = some cur)
    (hstatus : new.status = cur.status) : Unsettled (w.replace cur new).2 := by
  have hr := w.replaced cur new
  generalize w.replace cur new = served at hr
  cases hr with
  | same => exact h
  | removed => exact nofun
  | stored =>
      intro v hv
      cases Option.some.inj hv
      show new.status.phase = .error ∨ new.status.phase = .unset
      rw [hstatus]
      exact h cur hobj

/-- Nobody else writes a status. -/
theorem Unsettled.env (h : Unsettled w) (he : Env S w w') : Unsettled w' := by
  cases he with
  | create =>
      intro v hv
      cases Option.some.inj hv
      exact Or.inr rfl
  | edit spec finalizers hobj => exact h.replace hobj rfl
  | delete => exact serveDelete_elim (P := Unsettled) h fun _ hobj => h.replace hobj rfl
  | tick | elsewhere | agent | cluster => exact h

theorem Unsettled.later (h : Unsettled w) (he : ReflTransGen (Env S) w w') : Unsettled w' := by
  induction he with
  | refl => exact h
  | tail _ he ih => exact ih.env he

/-- A Reconcile has read `b`, and nothing was written since the CR failed. -/
structure Retrying (b : DatabaseBranch) (w : World) : Prop where
  inv : Inv w
  version : b ∈ w.crs.versions
  unsettled : Unsettled w

theorem Retrying.later (h : Retrying b w) (he : ReflTransGen (Env S) w w') : Retrying b w' where
  inv := (relied h.inv he).inv
  version := (relied h.inv he).versions h.version
  unsettled := h.unsettled.later he

theorem Retrying.of_crs (h : Retrying b w) (hcrs : w'.crs = w.crs)
    (huid : w'.nextUID = w.nextUID) : Retrying b w' where
  inv := h.inv.change (.keep hcrs huid)
  version := hcrs ▸ h.version
  unsettled := by
    unfold Unsettled
    rw [hcrs]
    exact h.unsettled

/-! ## Records -/

/-- In whatever is recorded of the program, the stored CR is left alone exactly if the first
write fails. -/
def Decided (S : Setting) (main p : Prog Call Call.Reply Outcome) (w : World) : Prop :=
  ∀ tr w', (system S main).Records p w tr w' → (Quiet tr ↔ FirstWriteFails tr)

theorem decided_nil : Quiet [] ↔ FirstWriteFails [] :=
  iff_of_true (List.forall_mem_nil _) fun _ hev => by cases hev

theorem decided_ret {a : Outcome} : Decided S main (.ret a) w := by
  intro tr w' h
  cases System.records_ret h
  exact decided_nil

/-- A call that is no write leaves the CR alone. -/
theorem decided_read {e : Call} {k : e.Reply → Prog Call Call.Reply Outcome}
    (hread : isWrite e = false)
    (h : ∀ w₁ r w₂, ReflTransGen (Env S) w w₁ → Exec S e w₁ r w₂ →
      w₂.crs = w₁.crs ∧ Decided S main (k r) w₂) :
    Decided S main (.call e k) w := by
  intro tr w' hrecord
  rcases System.records_call hrecord with rfl | ⟨w₁, r, w₂, rest, henv, hexec, hrest, rfl⟩
  · exact decided_nil
  · obtain ⟨hcrs, hdecided⟩ := h w₁ r w₂ henv hexec
    have hquiet : Quiet (⟨e, w₁, r, w₂⟩ :: rest) ↔ Quiet rest :=
      List.forall_mem_cons.trans (and_iff_right (congrArg Register.obj hcrs))
    rw [hquiet, hdecided rest w' hrest, FirstWriteFails, FirstWriteFails,
      List.find?_cons_of_neg (by simpa using hread)]

/-- The first write decides: it changes the CR, or the Reconcile ends with it. -/
theorem decided_write {c : ClientCall} {k : c.Reply → Prog Call Call.Reply Outcome}
    (hwrite : isWrite (.client c) = true)
    (h : ∀ w₁ r w₂, ReflTransGen (Env S) w w₁ → ClientExec c w₁ r w₂ →
      (Takes w₁ c ∧ w₂ = (serveClient c w₁).2 ∧ w₂.crs.obj ≠ w₁.crs.obj) ∨
      (¬ (Takes w₁ c ∧ w₂ = (serveClient c w₁).2) ∧ w₂.crs.obj = w₁.crs.obj ∧
        ∃ a, k r = .ret a)) :
    Decided S main (.call (.client c) k) w := by
  intro tr w' hrecord
  rcases System.records_call hrecord with rfl | ⟨w₁, r, w₂, rest, henv, hexec, hrest, rfl⟩
  · exact decided_nil
  · have hfirst : FirstWriteFails (⟨.client c, w₁, r, w₂⟩ :: rest) ↔
        ¬ (Takes w₁ c ∧ w₂ = (serveClient c w₁).2) := by
      have hfind : List.find? (isWrite ·.call) (⟨.client c, w₁, r, w₂⟩ :: rest) =
          some ⟨.client c, w₁, r, w₂⟩ := List.find?_cons_of_pos hwrite
      rw [FirstWriteFails, hfind]
      constructor
      · intro hfails ⟨htakes, hserved⟩
        exact hfails _ rfl ⟨c, rfl, htakes, hserved⟩
      · rintro hnot ev hev ⟨c', hc, htakes, hserved⟩
        cases Option.some.inj hev
        cases hc
        exact hnot ⟨htakes, hserved⟩
    rw [hfirst]
    rcases h w₁ r w₂ henv hexec with ⟨htakes, hserved, hchange⟩ | ⟨hnot, hsame, a, hret⟩
    · refine iff_of_false (fun hquiet => hchange ?_) (not_not_intro ⟨htakes, hserved⟩)
      exact hquiet _ List.mem_cons_self
    · rw [hret] at hrest
      cases System.records_ret hrest
      exact iff_of_true (List.forall_mem_singleton.mpr hsame) hnot

/-! ## The writes of a Reconcile -/

theorem serveStatusUpdate_refused (h : ¬ ∃ cur, accept w b = .ok cur) :
    ∃ err, serveStatusUpdate w b = (.error err, w) := by
  unfold serveStatusUpdate
  cases hacc : accept w b with
  | error err => exact ⟨err, rfl⟩
  | ok cur => exact absurd ⟨cur, hacc⟩ h

theorem serveUpdate_refused (h : ¬ ∃ cur, accept w b = .ok cur) :
    ∃ err, serveUpdate w b = (.error err, w) := by
  unfold serveUpdate
  cases hacc : accept w b with
  | error err => exact ⟨err, rfl⟩
  | ok cur => exact absurd ⟨cur, hacc⟩ h

theorem statusUpdate_obj_ne (hinv : Inv w) (hacc : accept w b = .ok cur)
    (hne : b.status ≠ cur.status) : (serveStatusUpdate w b).2.crs.obj ≠ w.crs.obj := by
  rw [serveStatusUpdate, hacc]
  exact replace_obj_ne hinv (accept_ok hacc).1 fun h => hne (congrArg (·.status) h)

theorem update_obj_ne (hinv : Inv w) (hacc : accept w b = .ok cur)
    (hne : b.finalizers ≠ cur.finalizers) : (serveUpdate w b).2.crs.obj ≠ w.crs.obj := by
  have hreplace :
      (w.replace cur { cur with spec := b.spec, finalizers := b.finalizers }).2.crs.obj ≠
        w.crs.obj :=
    replace_obj_ne hinv (accept_ok hacc).1 fun h => hne (congrArg (·.finalizers) h)
  rw [serveUpdate, hacc]
  dsimp only
  split
  · exact hreplace
  · exact hreplace

theorem serveDelete_idle (h : ¬ ∃ cur, w.crs.obj = some cur ∧ cur.deletionTimestamp = none) :
    (serveDelete w).2 = w := by
  unfold serveDelete
  split
  · rfl
  · next cur hobj =>
    split
    · rfl
    · next hdel => exact absurd ⟨cur, hobj, by simpa using hdel⟩ h

theorem serveDelete_obj_ne (hinv : Inv w) (hobj : w.crs.obj = some cur)
    (hdel : cur.deletionTimestamp = none) : (serveDelete w).2.crs.obj ≠ w.crs.obj := by
  have hserved : serveDelete w = (.ok (),
      (w.replace cur { cur with deletionTimestamp := some (newTime w.clock) }).2) := by
    unfold serveDelete
    simp [hobj, hdel]
  rw [hserved]
  refine replace_obj_ne hinv hobj ?_
  intro h
  have hmarked : some (newTime w.clock) = cur.deletionTimestamp :=
    congrArg DatabaseBranch.deletionTimestamp h
  rw [hdel] at hmarked
  cases hmarked

/-- To mark a CR Creating or Deleting that is in Error. -/
theorem decided_statusUpdate {v : DatabaseBranch} (hv : Retrying v w)
    {k : Except GoError DatabaseBranch → Prog Call Call.Reply Outcome}
    (hphase : b.status.phase ≠ .error ∧ b.status.phase ≠ .unset)
    (hend : ∀ err, ∃ a, k (.error err) = .ret a) :
    Decided S main (.call (.client (.statusUpdate b)) k) w := by
  refine decided_write rfl ?_
  intro w₁ r w₂ henv hexec
  have hw₁ := hv.later henv
  apply write_cases hexec
  · exact hend
  · intro hnot
    obtain ⟨err, hserved⟩ := serveStatusUpdate_refused hnot
    rw [hserved]
    exact ⟨rfl, hend err⟩
  · rintro ⟨cur, hacc⟩
    refine statusUpdate_obj_ne hw₁.inv hacc ?_
    intro hstatus
    rw [hstatus] at hphase
    exact (hw₁.unsettled cur (accept_ok hacc).1).elim hphase.1 hphase.2

theorem decided_addFinalizer (hb : Retrying b w) (hfin : ¬ b.containsFinalizer = true) :
    Decided S main (addFinalizer (reconciler externalHost) b) w := by
  refine decided_write rfl ?_
  intro w₁ r w₂ henv hexec
  have hw₁ := hb.later henv
  apply write_cases hexec
  · exact fun err => ⟨_, rfl⟩
  · intro hnot
    obtain ⟨err, hserved⟩ := serveUpdate_refused hnot
    rw [hserved]
    exact ⟨rfl, _, rfl⟩
  · rintro ⟨cur, hacc⟩
    obtain ⟨rfl, -⟩ :=
      accept_version hw₁.inv hw₁.version (resourceVersion_addFinalizer b) hacc
    refine update_obj_ne hw₁.inv hacc fun hsame => hfin ?_
    have hprot : cur.addFinalizer.Protected := DatabaseBranch.protected_addFinalizer
    unfold DatabaseBranch.Protected at hprot
    rw [hsame] at hprot
    exact DatabaseBranch.containsFinalizer_iff.mpr hprot

theorem decided_deleteExpired (hb : Retrying b w) :
    Decided S main (deleteExpired (reconciler externalHost) b) w := by
  refine decided_write rfl ?_
  intro w₁ r w₂ henv hexec
  have hw₁ := hb.later henv
  apply write_cases hexec
  · exact fun err => ⟨_, rfl⟩
  · intro hnot
    refine ⟨serveDelete_idle hnot, ?_⟩
    show ∃ a, Prog.bind (.ret (serveDelete (w₁.record (.deleteIssued w₁.run b w₁.clock))).1) _ =
      .ret a
    cases (serveDelete (w₁.record (.deleteIssued w₁.run b w₁.clock))).1 with
    | error err => exact ⟨_, rfl⟩
    | ok u => exact ⟨_, rfl⟩
  · rintro ⟨cur, hobj, hdel⟩
    exact serveDelete_obj_ne (hw₁.inv.change (.keep rfl rfl)) hobj hdel

/-! ## Reconcile -/

theorem decided_createBranch (hb : Retrying b w) :
    Decided S main (createBranch (reconciler externalHost) b) w :=
  decided_statusUpdate hb ⟨nofun, nofun⟩ fun _ => ⟨_, rfl⟩

theorem decided_handleDeletion (hb : Retrying b w) :
    Decided S main (handleDeletion (reconciler externalHost) b) w := by
  unfold handleDeletion
  by_cases hfin : b.containsFinalizer = true
  · simp only [hfin]
    exact decided_statusUpdate hb ⟨nofun, nofun⟩ fun _ => ⟨_, rfl⟩
  · simp only [hfin]
    exact decided_ret

/-- The clock may be read before the first write. -/
theorem decided_expired (hb : Retrying b w) {f : Bool → Prog Call Call.Reply Outcome}
    (hf : ∀ yes w', Retrying b w' → Decided S main (f yes) w') :
    Decided S main (expired (reconciler externalHost) b >>= f) w := by
  unfold expired
  cases b.status.expiresAt with
  | none => exact hf false w hb
  | some t =>
      by_cases hphase : b.status.phase = .ready
      · simp only [if_pos hphase]
        show Decided S main (.call Call.now _) w
        refine decided_read rfl ?_
        rintro w₁ now w₂ henv ⟨rfl, rfl⟩
        exact ⟨rfl, hf _ _ ((hb.later henv).of_crs rfl rfl)⟩
      · simp only [if_neg hphase]
        exact hf false w hb

theorem decided_reconcileLive (hb : Retrying b w) :
    Decided S main (reconcileLive (reconciler externalHost) b) w := by
  unfold reconcileLive
  refine decided_expired hb ?_
  intro yes w' hb'
  cases yes with
  | true => exact decided_deleteExpired hb'
  | false =>
      by_cases hfin : b.containsFinalizer = true
      · by_cases hphase : b.status.phase = .ready
        · simp only [hfin, hphase]
          exact decided_ret
        · simp only [hfin, hphase]
          exact decided_createBranch hb'
      · simp only [hfin]
        exact decided_addFinalizer hb' hfin

theorem decided_reconcile (hinv : Inv w) (hun : Unsettled w) :
    Decided S main (reconcile (reconciler externalHost) S.name) w := by
  show Decided S main (.call (.client (.get S.name)) _) w
  refine decided_read rfl ?_
  intro w₁ r w₂ henv hexec
  have hinv₁ := (relied hinv henv).inv
  have hun₁ := hun.later henv
  cases (show Got w₁ r w₂ from hexec) with
  | failed err => exact ⟨rfl, decided_ret⟩
  | @version b hb =>
      refine ⟨rfl, ?_⟩
      have hb₂ : Retrying b { w₁ with handling := some b.uid } :=
        Retrying.of_crs ⟨hinv₁, hb, hun₁⟩ rfl rfl
      show Decided S main (if b.deletionTimestamp.isSome then
        handleDeletion (reconciler externalHost) b else reconcileLive (reconciler externalHost) b) _
      split
      · exact decided_handleDeletion hb₂
      · exact decided_reconcileLive hb₂

/-! ## When a retry leaves the CR alone -/

/-- A CR is in Error, and a Reconcile starts.  As far as it gets, it leaves the stored CR alone
exactly if its first write is not carried out, or there is none. -/
theorem retry_quiet_iff
    (hreach : (system S (reconcile (reconciler externalHost) S.name)).Reach ⟨w, none⟩)
    (hobj : w.crs.obj = some cur) (herror : cur.status.phase = .error)
    {tr : List (Concur.Event Call Call.Reply World)}
    (hrecord : (system S (reconcile (reconciler externalHost) S.name)).Records
      (reconcile (reconciler externalHost) S.name) w.started tr w') :
    Quiet tr ↔ FirstWriteFails tr := by
  have hinv : Inv w := hreach.inv (reconcile_sound S externalHost)
  have hinv' : Inv w.started := hinv.change (.keep rfl rfl)
  have hun : Unsettled w.started := by
    intro v hv
    cases hobj.symm.trans hv
    exact Or.inl herror
  exact decided_reconcile hinv' hun tr w' hrecord

/-! ## A branch of a snapshot that is not there -/

def noSnapshot : GoError := errorf "no snapshot"

/-- The agent makes no clones. -/
def serveNoSnapshot : (e : Call) → World → e.Reply × World
  | .volume (.createClone ..), w => (.error noSnapshot, w.record (.createClone w.run w.handling))
  | e, w => serve demo e w

theorem serveNoSnapshot_exec (e : Call) (w : World) :
    Exec demo e w (serveNoSnapshot e w).1 (serveNoSnapshot e w).2 := by
  cases e with
  | volume c =>
      cases c with
      | createClone dbType snapshot cloneName => exact ⟨_, .failed noSnapshot, .answered⟩
      | _ => exact serve_exec _ w
  | client | now | database | k8s => exact serve_exec _ w

/-- The state after a user created a branch and a Reconcile added the finalizer. -/
def demoProtected : World :=
  reconciled demo demoReconcile (created demo ⟨"base", 0, "mysql", ""⟩ .fresh)

/-- The next Reconcile has failed. -/
def demoFailed : World := (demoReconcile.run serveNoSnapshot demoProtected.started).2

theorem reach_demoFailed : (system demo demoReconcile).Reach ⟨demoFailed, none⟩ :=
  (reach_reconciled (reach_created (.init World.initial_fresh) rfl)).run rfl rfl
    (.of_server serveNoSnapshot_exec demoReconcile demoProtected.started)

/-- The CR it left. -/
def failedBranch : DatabaseBranch where
  name := "demo"
  uid := 1
  resourceVersion := 4
  finalizers := [finalizerName]
  spec := { snapshotRef := "base", databaseType := "mysql" }
  status := { phase := .error, message := "create clone: no snapshot" }

/-- What the one after it does. -/
def demoRetry : List (Concur.Event Call Call.Reply World) :=
  demoReconcile.record serveNoSnapshot demoFailed.started

theorem records_demoRetry : (system demo demoReconcile).Records demoReconcile demoFailed.started
    demoRetry (demoReconcile.run serveNoSnapshot demoFailed.started).2 :=
  System.records_of_ends (Prog.ends_record serveNoSnapshot_exec demoReconcile demoFailed.started)

instance (tr : List (Concur.Event Call Call.Reply World)) : Decidable (Quiet tr) :=
  inferInstanceAs (Decidable (∀ ev ∈ tr, _))

theorem obj_demoFailed : demoFailed.crs.obj = some failedBranch := rfl

theorem retry_quiet_demo : ¬ FirstWriteFails demoRetry := by
  intro hfails
  have hquiet : Quiet demoRetry :=
    (retry_quiet_iff reach_demoFailed obj_demoFailed rfl records_demoRetry).mpr hfails
  exact absurd hquiet (by decide)

/-- The retry fails as before and leaves the status as it was, but stores two versions. -/
theorem retry_writes :
    (system demo demoReconcile).Reach ⟨demoFailed, none⟩ ∧
    demoFailed.crs.obj = some failedBranch ∧
    (system demo demoReconcile).Records demoReconcile demoFailed.started demoRetry
      (demoReconcile.run serveNoSnapshot demoFailed.started).2 ∧
    (demoReconcile.run serveNoSnapshot demoFailed.started).1 =
      ({}, some (noSnapshot.wrap "create clone")) ∧
    (demoReconcile.run serveNoSnapshot demoFailed.started).2.crs.obj =
      some { failedBranch with resourceVersion := 6 } ∧
    ¬ Quiet demoRetry := by
  exact ⟨reach_demoFailed, obj_demoFailed, records_demoRetry, rfl, rfl, by decide⟩

end BranchDB.Operator

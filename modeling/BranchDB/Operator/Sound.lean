/-
# `BranchDB.Operator.Sound` — the reconciler keeps its contract

One lemma per function of the reconcile loop, innermost first.  Each says: started
on a version of the CR being handled, in the situation in which the loop gets there,
the function issues every call in a state that meets `Guar`.
-/
import BranchDB.Operator.Contract

namespace BranchDB.Operator

open Concur Relation

variable {S : Setting} {main : Prog Call Call.Reply Outcome} {externalHost : String}

/-- `v` is a version of the CR the Reconcile in flight is handling. -/
structure Handling (v : DatabaseBranch) (w : World) : Prop where
  inv : Inv w
  version : v ∈ w.crs.versions
  handling : w.handling = some v.uid

theorem Handling.later {v : DatabaseBranch} {w w' : World} (h : Handling v w)
    (hr : Relied w w') : Handling v w' :=
  ⟨hr.inv, hr.versions h.version, hr.same.handling.trans h.handling⟩

/-- What a status write that was answered without an error did. -/
structure Written (w : World) (v : DatabaseBranch) (st : DatabaseBranchStatus)
    (b : DatabaseBranch) (w' : World) : Prop where
  obj : w'.crs.obj = some b
  uid : b.uid = v.uid
  deletionTimestamp : b.deletionTimestamp = v.deletionTimestamp
  finalizers : b.finalizers = v.finalizers
  status : b.status = st
  handling : w'.handling = w.handling
  run : w'.run = w.run

theorem statusUpdate_ok {w w' : World} {v b : DatabaseBranch} {st : DatabaseBranchStatus}
    (hinv : Inv w) (hv : v ∈ w.crs.versions) (hprot : v.Protected)
    (h : serveStatusUpdate w { v with status := st } = (.ok b, w')) : Written w v st b w' := by
  unfold serveStatusUpdate at h
  split at h
  · cases h
  · next cur hacc =>
    obtain ⟨rfl, hobj⟩ := accept_version hinv hv rfl hacc
    have hnew : DatabaseBranch.Protected { cur with status := st } := hprot
    rcases w.replaced_protected cur hnew with ⟨he, hrep⟩ | hrep
    · simp only [hrep, Prod.mk.injEq, Except.ok.injEq] at h
      obtain ⟨rfl, rfl⟩ := h
      exact ⟨hobj, rfl, rfl, rfl, (congrArg (·.status) he).symm, rfl, rfl⟩
    · simp only [hrep, Prod.mk.injEq, Except.ok.injEq] at h
      obtain ⟨rfl, rfl⟩ := h
      exact ⟨rfl, rfl, rfl, rfl, rfl, rfl, rfl⟩

/-- The written version is the one the Reconcile goes on with. -/
theorem Written.next {w w' : World} {v b : DatabaseBranch} {st : DatabaseBranchStatus}
    (h : Written w v st b w') (hv : Handling v w) (hinv : Inv w') : Handling b w' :=
  ⟨hinv, hinv.wf.mem b h.obj, h.handling.trans (hv.handling.trans (congrArg some h.uid.symm))⟩

/-- A provider call leaves the CRs and the Reconcile in flight alone. -/
structure Unmoved (w w' : World) : Prop where
  crs : w'.crs = w.crs
  handling : w'.handling = w.handling
  run : w'.run = w.run

theorem Handling.unmoved {v : DatabaseBranch} {w w' : World} (h : Handling v w)
    (hu : Unmoved w w') (hinv : Inv w') : Handling v w' :=
  ⟨hinv, hu.crs ▸ h.version, hu.handling.trans h.handling⟩

theorem Creating.unmoved {w w' : World} (h : Creating w) (hu : Unmoved w w') : Creating w' := by
  obtain ⟨u, hh, hal, hnr⟩ := h
  refine ⟨u, hu.handling.trans hh, hal.of_crs hu.crs, ?_⟩
  unfold NeverReady
  rw [hu.crs]
  exact hnr

theorem Creating.later {w w' : World} (h : Creating w) (hr : Relied w w') : Creating w' := by
  obtain ⟨u, hh, hal, hnr⟩ := h
  exact ⟨u, hr.same.handling.trans hh, hr.alive u hal, hr.neverReady u hnr⟩

theorem createClone_unmoved (dbType snapshot cloneName : String) {w w' : World}
    {r : Except GoError VolumeInfo}
    (h : VolumeExec S (.createClone dbType snapshot cloneName) w r w') : Unmoved w w' := by
  obtain ⟨served, hserved, hout⟩ := h
  refine Outcome.elim hout ⟨rfl, rfl, rfl⟩ ?_
  cases hserved <;> exact ⟨rfl, rfl, rfl⟩

/-! ## The creation flow -/

/-- The postcondition of every function of the loop: nothing more to say. -/
abbrev done : Outcome → World → Prop := fun _ _ => True

theorem holds_setError {w : World} {b : DatabaseBranch} {err : GoError} (hb : Handling b w)
    (hw : ∀ reading, StatusWrite reading b { b.status with phase := .error, message := err.msg }) :
    (system S main).Holds contract done (setError (reconciler externalHost) b err) w := by
  intro w₁ henv hinv₁
  have hb₁ := hb.later (relied hb.inv henv)
  exact ⟨⟨b, hb₁.version, hb₁.handling, _, hw _, rfl⟩, fun _ _ _ _ => trivial⟩

/-- A branch in the creation flow, as the Reconcile holds it: marked Creating. -/
structure InCreation (b : DatabaseBranch) (w : World) : Prop extends Handling b w where
  deletionTimestamp : b.deletionTimestamp = none
  prot : b.Protected
  phase : b.status.phase = .creating

theorem InCreation.later {b : DatabaseBranch} {w w' : World} (h : InCreation b w)
    (hr : Relied w w') : InCreation b w' :=
  ⟨h.toHandling.later hr, h.deletionTimestamp, h.prot, h.phase⟩

theorem InCreation.unmoved {b : DatabaseBranch} {w w' : World} (h : InCreation b w)
    (hu : Unmoved w w') (hinv : Inv w') : InCreation b w' :=
  ⟨h.toHandling.unmoved hu hinv, h.deletionTimestamp, h.prot, h.phase⟩

theorem holds_markReady {w : World} {b : DatabaseBranch} {dbInfo : BranchEndpoint}
    {expires : Option Int} (hb : InCreation b w) (hexp : Expiry w.reading b expires) :
    (system S main).Holds contract done
      (markReady (reconciler externalHost) b (readyStatus dbInfo externalHost expires)) w := by
  intro w₁ henv hinv₁
  have hr := relied hb.inv henv
  have hb₁ := hb.later hr
  refine ⟨⟨b, hb₁.version, hb₁.handling, _, ?_, rfl⟩, ?_⟩
  · rw [hr.same.reading]
    exact .ready hb.deletionTimestamp hb.prot hb.phase hexp
  · intro r w₂ _ _
    cases r <;> exact trivial

theorem holds_recordReady {w : World} {b : DatabaseBranch} {dbInfo : BranchEndpoint}
    (hb : InCreation b w) :
    (system S main).Holds contract done (recordReady (reconciler externalHost) b dbInfo) w := by
  unfold recordReady expiresAt
  by_cases httl : b.spec.ttlHours > 0
  · rw [if_pos httl]
    intro w₁ henv hinv₁
    refine ⟨trivial, ?_⟩
    rintro t w₂ ⟨rfl, rfl⟩ hinv₂
    have hb₂ : InCreation b { w₁ with reading := some w₁.clock } :=
      (hb.later (relied hb.inv henv)).unmoved ⟨rfl, rfl, rfl⟩ hinv₂
    exact holds_markReady hb₂ (.ttl httl rfl)
  · rw [if_neg httl]
    exact holds_markReady hb (.none (Int.not_lt.mp httl))

theorem holds_startDatabase {w : World} {b : DatabaseBranch} {vol : VolumeInfo}
    (hb : InCreation b w) (hc : Creating w) :
    (system S main).Holds contract done (startDatabase (reconciler externalHost) b vol) w := by
  intro w₁ henv hinv₁
  have hr := relied hb.inv henv
  refine ⟨hc.later hr, ?_⟩
  rintro r w₂ ⟨cluster, rfl⟩ hinv₂
  have hu : Unmoved w₁ ({ w₁ with cluster }.record (.start w₁.run w₁.handling)) := ⟨rfl, rfl, rfl⟩
  have hb₂ := (hb.later hr).unmoved hu hinv₂
  cases r with
  | error err =>
      exact holds_setError hb₂.toHandling fun _ =>
        .createError hb.deletionTimestamp hb.prot hb.phase (.database err)
  | ok dbInfo => exact holds_recordReady hb₂

theorem holds_createVolume {w : World} {b : DatabaseBranch} (hb : InCreation b w)
    (hc : Creating w) :
    (system S main).Holds contract done (createVolume (reconciler externalHost) b) w := by
  intro w₁ henv hinv₁
  have hr := relied hb.inv henv
  refine ⟨hc.later hr, ?_⟩
  intro r w₂ hex hinv₂
  have hu : Unmoved w₁ w₂ :=
    createClone_unmoved b.spec.databaseType b.spec.snapshotRef b.name hex
  have hb₂ := (hb.later hr).unmoved hu hinv₂
  cases r with
  | error err =>
      exact holds_setError hb₂.toHandling fun _ =>
        .createError hb.deletionTimestamp hb.prot hb.phase (.clone err)
  | ok vol => exact holds_startDatabase hb₂ ((hc.later hr).unmoved hu)

/-- Once Creating is written on a CR that is not being deleted, that CR was never Ready. -/
theorem neverReady_of_creating {w : World} (hinv : Inv w) {b : DatabaseBranch}
    (hobj : w.crs.obj = some b) (hdel : b.deletionTimestamp = none)
    (hphase : b.status.phase = .creating) : NeverReady b.uid w := by
  intro v hv huid hready
  have := (hinv.older v hv b hobj huid).ready hready
  simp [hdel, hphase] at this

theorem holds_createBranch {w : World} {b : DatabaseBranch} (hb : Handling b w)
    (hdel : b.deletionTimestamp = none) (hprot : b.Protected) (hphase : b.status.phase ≠ .ready) :
    (system S main).Holds contract done (createBranch (reconciler externalHost) b) w := by
  intro w₁ henv hinv₁
  have hb₁ := hb.later (relied hb.inv henv)
  have hw : StatusWrite w₁.reading b { b.status with phase := .creating } :=
    .creating hdel hprot hphase
  refine ⟨⟨b, hb₁.version, hb₁.handling, _, hw, rfl⟩, ?_⟩
  intro r w₂ hex hinv₂
  cases r with
  | error err => exact trivial
  | ok c =>
      have hwr := statusUpdate_ok hinv₁ hb₁.version hprot (Outcome.of_ok hex)
      have hc := hwr.next hb₁ hinv₂
      have hin : InCreation c w₂ :=
        { toHandling := hc
          deletionTimestamp := hwr.deletionTimestamp.trans hdel
          prot := by unfold DatabaseBranch.Protected; rw [hwr.finalizers]; exact hprot
          phase := congrArg (·.phase) hwr.status }
      refine holds_createVolume hin ⟨c.uid, hc.handling, ⟨c, hwr.obj, rfl, hin.prot⟩, ?_⟩
      exact neverReady_of_creating hinv₂ hwr.obj hin.deletionTimestamp hin.phase

/-! ## The live flow -/

theorem holds_deleteExpired {w : World} {b : DatabaseBranch} (hb : Handling b w)
    (hdel : b.deletionTimestamp = none) (hphase : b.status.phase = .ready) {t reading : Int}
    (ht : b.status.expiresAt = some t) (hclock : reading ≤ w.clock) (ha : after reading t = true) :
    (system S main).Holds contract done (deleteExpired (reconciler externalHost) b) w := by
  intro w₁ henv _
  have hr := relied hb.inv henv
  refine ⟨⟨hr.versions hb.version, hdel, hphase, t, reading, ht, ?_, ha⟩, ?_⟩
  · exact Int.le_trans hclock hr.clock
  · intro r w₂ _ _
    cases r <;> exact trivial

theorem holds_addFinalizer {w : World} {b : DatabaseBranch} (hb : Handling b w)
    (hdel : b.deletionTimestamp = none) :
    (system S main).Holds contract done (addFinalizer (reconciler externalHost) b) w := by
  intro w₁ henv _
  have hb₁ := hb.later (relied hb.inv henv)
  refine ⟨⟨b, hb₁.version, hb₁.handling, Or.inl ⟨hdel, rfl⟩⟩, ?_⟩
  intro r w₂ _ _
  cases r <;> exact trivial

/-- What `expired` has found out when it says `true`. -/
def Expired (b : DatabaseBranch) (w : World) : Prop :=
  b.status.phase = .ready ∧
    ∃ t reading, b.status.expiresAt = some t ∧ reading ≤ w.clock ∧ after reading t = true

theorem holds_expired {w : World} {b : DatabaseBranch} (hb : Handling b w) :
    (system S main).Holds contract (fun yes w' => Handling b w' ∧ (yes = true → Expired b w'))
      (expired (reconciler externalHost) b) w := by
  unfold expired
  cases ht : b.status.expiresAt with
  | none => exact ⟨hb, nofun⟩
  | some t =>
      by_cases hphase : b.status.phase = .ready
      · simp only [hphase, if_true]
        intro w₁ henv _
        refine ⟨trivial, ?_⟩
        rintro now w₂ ⟨rfl, rfl⟩ hinv₂
        refine ⟨(hb.later (relied hb.inv henv)).unmoved ⟨rfl, rfl, rfl⟩ hinv₂, ?_⟩
        intro ha
        exact ⟨hphase, t, w₁.clock, ht, Int.le_refl _, ha⟩
      · simp only [hphase, if_false]
        exact ⟨hb, nofun⟩

theorem holds_reconcileLive {w : World} {b : DatabaseBranch} (hb : Handling b w)
    (hdel : b.deletionTimestamp = none) :
    (system S main).Holds contract done (reconcileLive (reconciler externalHost) b) w := by
  unfold reconcileLive
  rw [System.holds_bind]
  refine (holds_expired hb).mono fun yes w' ⟨hb', hexp⟩ => ?_
  cases yes with
  | true =>
      obtain ⟨hphase, t, reading, ht, hclock, ha⟩ := hexp rfl
      exact holds_deleteExpired hb' hdel hphase ht hclock ha
  | false =>
      by_cases hfin : b.containsFinalizer = true
      · by_cases hphase : b.status.phase = .ready
        · simp only [hfin, hphase]
          exact trivial
        · simp only [hfin, hphase]
          exact holds_createBranch hb' hdel (DatabaseBranch.containsFinalizer_iff.mp hfin) hphase
      · simp only [hfin]
        exact holds_addFinalizer hb' hdel

/-! ## The deletion flow -/

/-- A branch in the deletion flow, as the Reconcile holds it: marked Deleting. -/
structure InDeletion (b : DatabaseBranch) (w : World) : Prop extends Handling b w where
  deletionTimestamp : b.deletionTimestamp.isSome
  prot : b.Protected
  phase : b.status.phase = .deleting

theorem InDeletion.later {b : DatabaseBranch} {w w' : World} (h : InDeletion b w)
    (hr : Relied w w') : InDeletion b w' :=
  ⟨h.toHandling.later hr, h.deletionTimestamp, h.prot, h.phase⟩

theorem InDeletion.unmoved {b : DatabaseBranch} {w w' : World} (h : InDeletion b w)
    (hu : Unmoved w w') (hinv : Inv w') : InDeletion b w' :=
  ⟨h.toHandling.unmoved hu hinv, h.deletionTimestamp, h.prot, h.phase⟩

theorem holds_releaseBranch {w : World} {b : DatabaseBranch} (hb : InDeletion b w)
    (hclean : CleanedIn w.run b.uid w.log) :
    (system S main).Holds contract done (releaseBranch (reconciler externalHost) b) w := by
  intro w₁ henv _
  have hr := relied hb.inv henv
  have hb₁ := hb.later hr
  refine ⟨⟨b, hb₁.version, hb₁.handling, Or.inr ⟨hb.deletionTimestamp, rfl, ?_⟩⟩, ?_⟩
  · rw [hr.same.run, hr.same.log]
    exact hclean
  · intro r w₂ _ _
    cases r <;> exact trivial

theorem deleteClone_log (dbType cloneName : String) {w w' : World} {r : Except GoError Unit}
    (h : VolumeExec S (.deleteClone dbType cloneName) w r w') :
    Unmoved w w' ∧ w'.log = .cloneDeleted w.run w.handling r.isOk :: w.log := by
  obtain ⟨served, w₁, hserved, hout, rfl⟩ := h
  have hw₁ : Unmoved w w₁ ∧ w₁.log = w.log := by
    refine Outcome.elim hout (P := fun w' => Unmoved w w' ∧ w'.log = w.log)
      ⟨⟨rfl, rfl, rfl⟩, rfl⟩ ?_
    cases hserved <;> exact ⟨⟨rfl, rfl, rfl⟩, rfl⟩
  exact ⟨⟨hw₁.1.crs, hw₁.1.handling, hw₁.1.run⟩, congrArg (_ :: ·) hw₁.2⟩

theorem holds_destroyClone {w : World} {b : DatabaseBranch} (hb : InDeletion b w)
    (hstop : StoppedIn w.run b.uid w.log) :
    (system S main).Holds contract done (destroyClone (reconciler externalHost) b) w := by
  intro w₁ henv _
  have hr := relied hb.inv henv
  have hb₁ := hb.later hr
  refine ⟨trivial, ?_⟩
  intro r w₂ hex hinv₂
  obtain ⟨hu, hlog⟩ := deleteClone_log b.spec.databaseType b.name hex
  have hb₂ := hb₁.unmoved hu hinv₂
  cases r with
  | error err =>
      exact holds_setError hb₂.toHandling fun _ =>
        .deleteError hb.deletionTimestamp hb.prot hb.phase (.clone err)
  | ok _ =>
      refine holds_releaseBranch hb₂ ?_
      rw [hlog, hu.run, hb₁.handling, hr.same.run, hr.same.log]
      exact hstop.cleaned

theorem holds_stopDatabase {w : World} {b : DatabaseBranch} (hb : InDeletion b w) :
    (system S main).Holds contract done (stopDatabase (reconciler externalHost) b) w := by
  intro w₁ henv _
  have hr := relied hb.inv henv
  have hb₁ := hb.later hr
  refine ⟨trivial, ?_⟩
  rintro r w₂ ⟨cluster, rfl⟩ hinv₂
  have hu : Unmoved w₁ ({ w₁ with cluster }.record (.stopped w₁.run w₁.handling r.isOk)) :=
    ⟨rfl, rfl, rfl⟩
  have hb₂ := hb₁.unmoved hu hinv₂
  cases r with
  | error err =>
      exact holds_setError hb₂.toHandling fun _ =>
        .deleteError hb.deletionTimestamp hb.prot hb.phase (.database err)
  | ok _ =>
      refine holds_destroyClone hb₂ ⟨[], w₁.log, ?_, fun _ he => nomatch he⟩
      rw [List.nil_append, ← hb₁.handling]
      rfl

theorem holds_handleDeletion {w : World} {b : DatabaseBranch} (hb : Handling b w)
    (hdel : b.deletionTimestamp.isSome) :
    (system S main).Holds contract done (handleDeletion (reconciler externalHost) b) w := by
  unfold handleDeletion
  by_cases hfin : b.containsFinalizer = true
  · have hprot := DatabaseBranch.containsFinalizer_iff.mp hfin
    simp only [hfin]
    intro w₁ henv hinv₁
    have hb₁ := hb.later (relied hb.inv henv)
    have hw : StatusWrite w₁.reading b { b.status with phase := .deleting } := .deleting hdel hprot
    refine ⟨⟨b, hb₁.version, hb₁.handling, _, hw, rfl⟩, ?_⟩
    intro r w₂ hex hinv₂
    cases r with
    | error err => exact trivial
    | ok c =>
        have hwr := statusUpdate_ok hinv₁ hb₁.version hprot (Outcome.of_ok hex)
        exact holds_stopDatabase
          { toHandling := hwr.next hb₁ hinv₂
            deletionTimestamp := by rw [hwr.deletionTimestamp]; exact hdel
            prot := by unfold DatabaseBranch.Protected; rw [hwr.finalizers]; exact hprot
            phase := congrArg (·.phase) hwr.status }
  · simp only [hfin]
    exact trivial

/-! ## Reconcile -/

theorem holds_reconcile {w : World} (name : String) :
    (system S main).Holds contract done (reconcile (reconciler externalHost) name) w := by
  intro w₁ henv hinv₁
  refine ⟨trivial, ?_⟩
  intro r w₂ hex hinv₂
  cases (show Got w₁ r w₂ from hex) with
  | failed err => exact trivial
  | @version b hb =>
      have hb₂ : Handling b { w₁ with handling := some b.uid } := ⟨hinv₂, hb, rfl⟩
      show (system S main).Holds contract done
        (if b.deletionTimestamp.isSome then handleDeletion (reconciler externalHost) b
          else reconcileLive (reconciler externalHost) b) _
      by_cases hdel : b.deletionTimestamp.isSome
      · rw [if_pos hdel]
        exact holds_handleDeletion hb₂ hdel
      · rw [if_neg hdel]
        exact holds_reconcileLive hb₂ (by simpa using hdel)

/-- Every run of the reconciler respects the contract. -/
theorem reconcile_sound (S : Setting) (externalHost : String) :
    (system S (reconcile (reconciler externalHost) S.name)).Sound contract where
  init _ hinit := .of_init hinit
  env _ _ hinv henv := Inv.change hinv henv.change
  start _ _ hinv hst := Inv.change hinv (hst ▸ .keep rfl rfl)
  call _ _ _ _ hinv hg hex := Inv.change hinv (exec_change hinv hg hex)
  main p _ w hp _ _ := by
    cases (show p = reconcile (reconciler externalHost) S.name from hp)
    exact holds_reconcile S.name

end BranchDB.Operator

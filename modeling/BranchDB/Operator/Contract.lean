/-
# `BranchDB.Operator.Contract` — what one Reconcile can do

`Guar` states, for every call, what is true whenever a Reconcile issues it: which
version of the CR a write was made from and that it is one of the writes of
`StatusWrite`, that CreateClone and Start are called only while the stored CR is the
one being handled, carries the finalizer and was never Ready, that the finalizer is
dropped only after a Stop and a DeleteClone of the same Reconcile succeeded.

`reconcile_sound` checks `reconcile` against it call by call, with users free to act
before every call.  What the claims about the operator need of the code is in `Guar`;
their proofs are inductions over runs and never look at `reconcile` again.
-/
import BranchDB.Operator.History

namespace BranchDB.Operator

open Concur Relation

variable {S : Setting}

/-! ## Serving writes -/

/-- The ways `World.replace` can go. -/
inductive Replaced (w : World) (cur new : DatabaseBranch) : DatabaseBranch × World → Prop
  | same : new = cur → Replaced w cur new (cur, w)
  | removed : new.deletionTimestamp.isSome → new.finalizers = [] →
      Replaced w cur new (new, w.remove)
  | stored : Replaced w cur new (w.stamped new, w.store new)

theorem World.replaced (w : World) (cur new : DatabaseBranch) :
    Replaced w cur new (w.replace cur new) := by
  unfold World.replace
  split
  · next h => exact .same h
  · split
    · next h => exact .removed h.1 h.2
    · exact .stored

/-- What is answered is the new version, whatever its number. -/
theorem World.replace_fst (w : World) (cur new : DatabaseBranch) :
    (w.replace cur new).1 =
      { new with resourceVersion := (w.replace cur new).1.resourceVersion } := by
  have hr := w.replaced cur new
  generalize w.replace cur new = served at hr
  cases hr with
  | same he => exact he ▸ rfl
  | removed => rfl
  | stored => rfl

/-- A protected CR is not removed. -/
theorem World.replaced_protected (w : World) (cur : DatabaseBranch) {new : DatabaseBranch}
    (h : new.Protected) :
    (new = cur ∧ w.replace cur new = (cur, w)) ∨
      w.replace cur new = (w.stamped new, w.store new) := by
  have hr := w.replaced cur new
  generalize w.replace cur new = served at hr
  cases hr with
  | same he => exact Or.inl ⟨he, rfl⟩
  | removed _ hnil => simp [DatabaseBranch.Protected, hnil] at h
  | stored => exact Or.inr rfl

/-- Replacing the stored CR by a successor. -/
theorem World.replace_change {w : World} {cur new : DatabaseBranch} (hcur : w.crs.obj = some cur)
    (hs : Succ cur new) : Change w (w.replace cur new).2 := by
  have hr := w.replaced cur new
  generalize w.replace cur new = served at hr
  cases hr with
  | same => exact .keep rfl rfl
  | removed => exact .remove rfl rfl
  | stored => exact .succ hcur hs rfl rfl

/-- ... touches nothing but the CRs. -/
theorem World.replace_frame (w : World) (cur new : DatabaseBranch) :
    ∃ crs, (w.replace cur new).2 = { w with crs } := by
  have hr := w.replaced cur new
  generalize w.replace cur new = served at hr
  cases hr <;> exact ⟨_, rfl⟩

theorem accept_ok {w : World} {b cur : DatabaseBranch} (h : accept w b = .ok cur) :
    w.crs.obj = some cur ∧ cur.resourceVersion = b.resourceVersion := by
  unfold accept at h
  split at h
  · cases h
  · next cur' hobj =>
    split at h
    · next hmatch =>
      cases h
      exact ⟨hobj, hmatch.2⟩
    · cases h

/-- A client whose copy is accepted holds the stored CR. -/
theorem accept_version {w : World} (hinv : Inv w) {b v cur : DatabaseBranch}
    (hv : v ∈ w.crs.versions) (hb : b.resourceVersion = v.resourceVersion)
    (h : accept w b = .ok cur) : cur = v ∧ w.crs.obj = some v := by
  obtain ⟨hobj, hrv⟩ := accept_ok h
  have he : cur = v := hinv.wf.eq_of_ver hv hobj (hrv.trans hb)
  exact ⟨he, he ▸ hobj⟩

/-- What holds before an Update and after the stored CR was replaced, and does not look at
the log, holds after the Update was served. -/
theorem serveUpdate_elim {P : World → Prop} {w : World} {b : DatabaseBranch}
    (hrecord : ∀ w' e, P w' → P (w'.record e)) (hsame : P w)
    (hreplace : ∀ cur, accept w b = .ok cur →
      P (w.replace cur { cur with spec := b.spec, finalizers := b.finalizers }).2) :
    P (serveUpdate w b).2 := by
  unfold serveUpdate
  split
  · exact hsame
  · next cur hacc =>
    dsimp only
    split
    · exact hrecord _ _ (hreplace cur hacc)
    · exact hreplace cur hacc

theorem serveStatusUpdate_elim {P : World → Prop} {w : World} {b : DatabaseBranch}
    (hrecord : ∀ w' e, P w' → P (w'.record e)) (hsame : P w)
    (hreplace : ∀ cur, accept w b = .ok cur →
      P (w.replace cur { cur with status := b.status }).2) :
    P (serveStatusUpdate w b).2 := by
  unfold serveStatusUpdate
  split
  · exact hsame
  · next cur hacc => exact hrecord _ _ (hreplace cur hacc)

theorem serveDelete_elim {P : World → Prop} {w : World} (hsame : P w)
    (hreplace : ∀ cur, w.crs.obj = some cur →
      P (w.replace cur { cur with deletionTimestamp := some (newTime w.clock) }).2) :
    P (serveDelete w).2 := by
  unfold serveDelete
  split
  · exact hsame
  · next cur hcur =>
    split
    · exact hsame
    · exact hreplace cur hcur

theorem serveUpdate_frame (w : World) (b : DatabaseBranch) :
    ∃ crs log, (serveUpdate w b).2 = { w with crs, log } := by
  refine serveUpdate_elim (P := fun w' => ∃ crs log, w' = { w with crs, log }) ?_
    ⟨_, _, rfl⟩ fun cur _ => ?_
  · rintro _ e ⟨crs, log, rfl⟩
    exact ⟨crs, e :: log, rfl⟩
  · obtain ⟨crs, h⟩ := w.replace_frame cur _
    exact ⟨crs, w.log, h⟩

theorem serveStatusUpdate_frame (w : World) (b : DatabaseBranch) :
    ∃ crs log, (serveStatusUpdate w b).2 = { w with crs, log } := by
  refine serveStatusUpdate_elim (P := fun w' => ∃ crs log, w' = { w with crs, log }) ?_
    ⟨_, _, rfl⟩ fun cur _ => ?_
  · rintro _ e ⟨crs, log, rfl⟩
    exact ⟨crs, e :: log, rfl⟩
  · obtain ⟨crs, h⟩ := w.replace_frame cur _
    exact ⟨crs, w.log, h⟩

theorem serveDelete_frame (w : World) : ∃ crs, (serveDelete w).2 = { w with crs } :=
  serveDelete_elim (P := fun w' => ∃ crs, w' = { w with crs }) ⟨_, rfl⟩ fun _ _ =>
    w.replace_frame _ _

/-! ## The environment -/

/-- The environment leaves the Reconcile in flight and the log alone. -/
structure SameRun (w w' : World) : Prop where
  run : w'.run = w.run
  handling : w'.handling = w.handling
  reading : w'.reading = w.reading
  log : w'.log = w.log

theorem SameRun.refl (w : World) : SameRun w w := ⟨rfl, rfl, rfl, rfl⟩

theorem SameRun.trans {w w' w'' : World} (h : SameRun w w') (h' : SameRun w' w'') :
    SameRun w w'' :=
  ⟨h'.run.trans h.run, h'.handling.trans h.handling, h'.reading.trans h.reading,
    h'.log.trans h.log⟩

theorem sameRun_replace (w : World) (cur new : DatabaseBranch) :
    SameRun w (w.replace cur new).2 := by
  obtain ⟨crs, h⟩ := w.replace_frame cur new
  rw [h]
  exact ⟨rfl, rfl, rfl, rfl⟩

theorem sameRun_serveDelete (w : World) : SameRun w (serveDelete w).2 := by
  obtain ⟨crs, h⟩ := serveDelete_frame w
  rw [h]
  exact ⟨rfl, rfl, rfl, rfl⟩

theorem serveDelete_change (w : World) : Change w (serveDelete w).2 :=
  serveDelete_elim (P := Change w) (.keep rfl rfl) fun _ hcur =>
    w.replace_change hcur (.keep rfl rfl fun _ => rfl)

theorem Env.change {w w' : World} (h : Env S w w') : Change w w' := by
  cases h with
  | create spec finalizers hnone => exact .create hnone rfl rfl rfl rfl rfl
  | edit spec finalizers hcur _ _ => exact w.replace_change hcur (.keep rfl rfl id)
  | delete => exact serveDelete_change w
  | tick _ => exact .keep rfl rfl
  | elsewhere version huid => exact .advance version rfl huid
  | agent _ => exact .keep rfl rfl
  | cluster _ => exact .keep rfl rfl

theorem Env.sameRun {w w' : World} (h : Env S w w') : SameRun w w' := by
  cases h with
  | edit spec finalizers _ _ _ => exact sameRun_replace _ _ _
  | delete => exact sameRun_serveDelete w
  | create | tick | elsewhere | agent | cluster => exact ⟨rfl, rfl, rfl, rfl⟩

/-- The CR `u` is stored and carries the cleanup finalizer. -/
def Alive (u : Nat) (w : World) : Prop :=
  ∃ cur, w.crs.obj = some cur ∧ cur.uid = u ∧ cur.Protected

/-- No version of the CR `u` was Ready. -/
def NeverReady (u : Nat) (w : World) : Prop :=
  ∀ v ∈ w.crs.versions, v.uid = u → v.status.phase ≠ .ready

theorem Alive.of_crs {u : Nat} {w w' : World} (h : Alive u w) (hcrs : w'.crs = w.crs) :
    Alive u w' := by
  unfold Alive
  rw [hcrs]
  exact h

/-- A protected CR survives being replaced by a protected one. -/
theorem Alive.replace {u : Nat} {w : World} {cur new : DatabaseBranch} (h : Alive u w)
    (hcur : w.crs.obj = some cur) (huid : new.uid = cur.uid)
    (hnew : cur.Protected → new.Protected) : Alive u (w.replace cur new).2 := by
  obtain ⟨cur', hcur', hu, hprot⟩ := h
  rw [hcur, Option.some.injEq] at hcur'
  subst hcur'
  rcases w.replaced_protected cur (hnew hprot) with ⟨_, he⟩ | he
  · rw [he]
    exact ⟨cur, hcur, hu, hprot⟩
  · rw [he]
    exact ⟨w.stamped new, rfl, huid.trans hu, hnew hprot⟩

theorem Alive.serveDelete {u : Nat} {w : World} (h : Alive u w) : Alive u (serveDelete w).2 :=
  serveDelete_elim (P := Alive u) h fun _ hcur => h.replace hcur rfl id

/-- The environment never takes a protected CR away. -/
theorem Alive.env {u : Nat} {w w' : World} (h : Alive u w) (he : Env S w w') : Alive u w' := by
  cases he with
  | create spec finalizers hnone =>
      obtain ⟨cur, hcur, -⟩ := h
      rw [hnone] at hcur
      cases hcur
  | edit spec finalizers hcur hprot _ => exact h.replace hcur rfl hprot
  | delete => exact h.serveDelete
  | tick | elsewhere | agent | cluster => exact h

/-- Successors of a CR that was never Ready, and fresh CRs, are not Ready, as long as
the reconciler does not write. -/
theorem NeverReady.env {u : Nat} {w w' : World} (hinv : Inv w) (h : NeverReady u w)
    (he : Env S w w') : NeverReady u w' := by
  have hrep : ∀ {cur new : DatabaseBranch}, w.crs.obj = some cur → new.uid = cur.uid →
      new.status = cur.status → NeverReady u (w.replace cur new).2 := by
    intro cur new hcur huid hst
    have hr := w.replaced cur new
    generalize w.replace cur new = served at hr
    cases hr with
    | same => exact h
    | removed => exact h
    | stored =>
        intro v hv hvu
        rcases List.mem_cons.mp hv with rfl | hv
        · show new.status.phase ≠ .ready
          rw [hst]
          exact h cur (hinv.wf.mem cur hcur) (huid.symm.trans hvu)
        · exact h v hv hvu
  cases he with
  | create spec finalizers _ =>
      intro v hv hvu
      rcases List.mem_cons.mp hv with rfl | hv
      · exact fun hp => nomatch hp
      · exact h v hv hvu
  | edit spec finalizers hcur _ _ => exact hrep hcur rfl rfl
  | delete => exact serveDelete_elim (P := NeverReady u) h fun _ hcur => hrep hcur rfl rfl
  | tick | elsewhere | agent | cluster => exact h

/-- The clock does not go back. -/
theorem Env.clock {w w' : World} (h : Env S w w') : w.clock ≤ w'.clock := by
  cases h with
  | @edit cur spec finalizers _ _ _ =>
      obtain ⟨crs, h⟩ := w.replace_frame cur { cur with spec, finalizers }
      exact Int.le_of_eq (congrArg (·.clock) h).symm
  | delete =>
      obtain ⟨crs, h⟩ := serveDelete_frame w
      exact Int.le_of_eq (congrArg (·.clock) h).symm
  | tick h => exact h
  | create | elsewhere | agent | cluster => exact Int.le_refl _

/-- What a Reconcile may rely on across any number of moves of the environment. -/
structure Relied (w w' : World) : Prop where
  inv : Inv w'
  same : SameRun w w'
  versions : w.crs.versions ⊆ w'.crs.versions
  clock : w.clock ≤ w'.clock
  alive : ∀ u, Alive u w → Alive u w'
  neverReady : ∀ u, NeverReady u w → NeverReady u w'

theorem relied {w w' : World} (hinv : Inv w) (h : ReflTransGen (Env S) w w') : Relied w w' := by
  induction h with
  | refl => exact ⟨hinv, .refl w, List.Subset.refl _, Int.le_refl _, fun _ => id, fun _ => id⟩
  | tail _ he ih =>
      exact
        { inv := ih.inv.change he.change
          same := ih.same.trans he.sameRun
          versions := List.Subset.trans ih.versions he.change.versions
          clock := Int.le_trans ih.clock he.clock
          alive := fun u hu => (ih.alive u hu).env he
          neverReady := fun u hu => (ih.neverReady u hu).env ih.inv he }

/-! ## The log -/

/-- The event is a call of CreateClone or Start for the CR `u`. -/
def Event.Invokes (u : Nat) : Event → Prop
  | .createClone _ uid | .start _ uid => uid = some u
  | _ => False

/-- Reconcile `run` stopped the database of `u`, and nothing was created for `u` since. -/
def StoppedIn (run u : Nat) (log : List Event) : Prop :=
  ∃ newer older, log = newer ++ .stopped run (some u) true :: older ∧
    ∀ e ∈ newer, ¬ e.Invokes u

/-- Reconcile `run` stopped the database of `u` and then deleted its clone, both with
success, and nothing was created for `u` since. -/
def CleanedIn (run u : Nat) (log : List Event) : Prop :=
  ∃ newer older, log = newer ++ .cloneDeleted run (some u) true :: older ∧
    (∀ e ∈ newer, ¬ e.Invokes u) ∧ StoppedIn run u older

theorem StoppedIn.cons {run u : Nat} {log : List Event} {e : Event} (h : StoppedIn run u log)
    (he : ¬ e.Invokes u) : StoppedIn run u (e :: log) := by
  obtain ⟨newer, older, rfl, hnew⟩ := h
  refine ⟨e :: newer, older, rfl, ?_⟩
  intro e' he'
  rcases List.mem_cons.mp he' with rfl | he'
  · exact he
  · exact hnew e' he'

theorem CleanedIn.cons {run u : Nat} {log : List Event} {e : Event} (h : CleanedIn run u log)
    (he : ¬ e.Invokes u) : CleanedIn run u (e :: log) := by
  obtain ⟨newer, older, rfl, hnew, hstop⟩ := h
  refine ⟨e :: newer, older, rfl, fun e' he' => ?_, hstop⟩
  rcases List.mem_cons.mp he' with rfl | he'
  · exact he
  · exact hnew e' he'

theorem StoppedIn.cleaned {run u : Nat} {log : List Event} (h : StoppedIn run u log) :
    CleanedIn run u (.cloneDeleted run (some u) true :: log) :=
  ⟨[], log, rfl, (fun _ he => nomatch he), h⟩

/-! ## The contract -/

/-- The CR being handled is stored, protected, and was never Ready. -/
def Creating (w : World) : Prop :=
  ∃ u, w.handling = some u ∧ Alive u w ∧ NeverReady u w

/-- What is true whenever a Reconcile issues a call. -/
def Guar : Call → World → Prop
  | .client (.statusUpdate b), w => ∃ v ∈ w.crs.versions, w.handling = some v.uid ∧
      ∃ st, StatusWrite w.reading v st ∧ b = { v with status := st }
  | .client (.update b), w => ∃ v ∈ w.crs.versions, w.handling = some v.uid ∧
      ((v.deletionTimestamp = none ∧ b = v.addFinalizer) ∨
        (v.deletionTimestamp.isSome ∧ b = v.removeFinalizer ∧ CleanedIn w.run v.uid w.log))
  | .client (.delete b), w => b ∈ w.crs.versions ∧ b.deletionTimestamp = none ∧
      b.status.phase = .ready ∧
      ∃ t reading, b.status.expiresAt = some t ∧ reading ≤ w.clock ∧ after reading t = true
  | .volume (.createClone ..), w => Creating w
  | .database (.start ..), w => Creating w
  | _, _ => True

/-- The contract of the reconciler. -/
def contract : Contract Call World := ⟨Inv, Guar⟩

/-! ## What a call logs -/

/-- The event a call may log. -/
inductive Logged (w : World) : Call → Event → Prop
  | statusWritten {b cur : DatabaseBranch} : accept w b = .ok cur →
      Logged w (.client (.statusUpdate b)) (.statusWritten w.run cur
        (w.replace cur { cur with status := b.status }).1 w.reading)
  | finalizerRemoved {b cur : DatabaseBranch} : accept w b = .ok cur → cur.Protected →
      finalizerName ∉ b.finalizers →
      Logged w (.client (.update b)) (.finalizerRemoved w.run cur.uid)
  | deleteIssued {b : DatabaseBranch} :
      Logged w (.client (.delete b)) (.deleteIssued w.run b w.clock)
  | createClone {dbType snapshot cloneName : String} :
      Logged w (.volume (.createClone dbType snapshot cloneName)) (.createClone w.run w.handling)
  | cloneDeleted {dbType cloneName : String} (ok : Bool) :
      Logged w (.volume (.deleteClone dbType cloneName)) (.cloneDeleted w.run w.handling ok)
  | start {branch dbType dbVersion : String} {vol : VolumeInfo} :
      Logged w (.database (.start branch vol dbType dbVersion)) (.start w.run w.handling)
  | stopped {branch : String} (ok : Bool) :
      Logged w (.database (.stop branch)) (.stopped w.run w.handling ok)

/-- The log grows by at most the event of the call. -/
def Grown (w w' : World) (e : Call) : Prop :=
  w'.log = w.log ∨ ∃ ev, Logged w e ev ∧ w'.log = ev :: w.log

theorem serveStatusUpdate_grown (w : World) (b : DatabaseBranch) :
    Grown w (serveStatusUpdate w b).2 (.client (.statusUpdate b)) := by
  unfold serveStatusUpdate
  split
  · exact Or.inl rfl
  · next cur hacc =>
    exact Or.inr ⟨_, .statusWritten hacc, congrArg (_ :: ·) (sameRun_replace w cur _).log⟩

theorem serveUpdate_grown (w : World) (b : DatabaseBranch) :
    Grown w (serveUpdate w b).2 (.client (.update b)) := by
  unfold serveUpdate
  split
  · exact Or.inl rfl
  · next cur hacc =>
    dsimp only
    split
    · next h =>
      have hprot := DatabaseBranch.containsFinalizer_iff.mp h.1
      exact Or.inr ⟨_, .finalizerRemoved hacc hprot h.2,
        congrArg (_ :: ·) (sameRun_replace w cur _).log⟩
    · exact Or.inl (sameRun_replace w cur _).log

/-- What a call does: it moves what the Reconcile knows and what lies outside the API server,
logged or not, or it is a write that the API server serves. -/
inductive Effect (w : World) : Call → World → Prop
  | quiet {e : Call} (clones : String → Option (Option Nat)) (cluster : K8s.Cluster)
      (handling : Option Nat) (reading : Option Int) :
      Effect w e { w with clones, cluster, handling, reading }
  | logged {e : Call} {ev : Event} (clones : String → Option (Option Nat))
      (cluster : K8s.Cluster) : Logged w e ev →
      Effect w e ({ w with clones, cluster }.record ev)
  | update (b : DatabaseBranch) : Effect w (.client (.update b)) (serveUpdate w b).2
  | statusUpdate (b : DatabaseBranch) :
      Effect w (.client (.statusUpdate b)) (serveStatusUpdate w b).2
  | delete (b : DatabaseBranch) :
      Effect w (.client (.delete b)) (serveDelete (w.record (.deleteIssued w.run b w.clock))).2

theorem Effect.none (w : World) (e : Call) : Effect w e w :=
  .quiet w.clones w.cluster w.handling w.reading

theorem clientExec_effect {c : ClientCall} {w w' : World} {r : c.Reply}
    (hex : ClientExec c w r w') : Effect w (.client c) w' := by
  cases c with
  | get name =>
      cases (show Got w r w' from hex) with
      | version _ => exact .quiet w.clones w.cluster _ w.reading
      | failed _ => exact .none w _
  | update b => exact Outcome.elim (P := Effect w _) hex (.none w _) (.update b)
  | statusUpdate b => exact Outcome.elim (P := Effect w _) hex (.none w _) (.statusUpdate b)
  | delete b =>
      exact Outcome.elim (P := Effect w _) hex (.logged w.clones w.cluster .deleteIssued)
        (.delete b)

theorem volumeExec_effect {c : VolumeCall} {w w' : World} {r : c.Reply}
    (hex : VolumeExec S c w r w') : Effect w (.volume c) w' := by
  cases c with
  | createClone dbType snapshot cloneName =>
      obtain ⟨served, hserved, hout⟩ := hex
      refine Outcome.elim (P := Effect w _) hout (.logged w.clones w.cluster .createClone) ?_
      cases hserved with
      | made _ _ => exact .logged _ w.cluster .createClone
      | present | failed => exact .logged w.clones w.cluster .createClone
  | deleteClone dbType cloneName =>
      obtain ⟨served, w₁, hserved, hout, rfl⟩ := hex
      have hw₁ : ∃ clones, w₁ = { w with clones } := by
        refine Outcome.elim (P := fun w₁ => ∃ clones, w₁ = { w with clones }) hout ⟨_, rfl⟩ ?_
        cases hserved <;> exact ⟨_, rfl⟩
      obtain ⟨clones, rfl⟩ := hw₁
      exact .logged clones w.cluster (.cloneDeleted r.isOk)
  | takeSnapshot | deleteSnapshot | listSnapshots | listClones | gcSnapshots | resetDataset =>
      cases (show w' = w from hex)
      exact .none w _

theorem exec_effect {e : Call} {w w' : World} {r : e.Reply} (hex : Exec S e w r w') :
    Effect w e w' := by
  cases e with
  | client c => exact clientExec_effect hex
  | now =>
      cases hex.2
      exact .quiet w.clones w.cluster w.handling _
  | volume c => exact volumeExec_effect hex
  | database c =>
      cases c with
      | start =>
          obtain ⟨cluster, rfl⟩ := hex
          exact .logged w.clones cluster .start
      | stop =>
          obtain ⟨cluster, rfl⟩ := hex
          exact .logged w.clones cluster (.stopped r.isOk)
  | k8s c =>
      obtain ⟨cluster, -, rfl⟩ := hex
      exact .quiet w.clones cluster w.handling w.reading

theorem exec_grown {e : Call} {w w' : World} {r : e.Reply} (hex : Exec S e w r w') :
    Grown w w' e := by
  cases exec_effect hex with
  | quiet => exact Or.inl rfl
  | logged _ _ hl => exact Or.inr ⟨_, hl, rfl⟩
  | update b => exact serveUpdate_grown w b
  | statusUpdate b => exact serveStatusUpdate_grown w b
  | delete b => exact Or.inr ⟨_, .deleteIssued, (sameRun_serveDelete _).log⟩

/-- Only CreateClone and Start invoke, and they are called for the CR being created. -/
theorem Logged.invokes {w : World} {e : Call} {ev : Event} (h : Logged w e ev) (hg : Guar e w)
    {u : Nat} (hin : ev.Invokes u) : w.handling = some u ∧ Creating w := by
  cases h with
  | createClone | start => exact ⟨hin, hg⟩
  | statusWritten | finalizerRemoved | deleteIssued | cloneDeleted | stopped => exact hin.elim

/-! ## How a call changes the CRs -/

theorem Change.record {w w' : World} {e : Event} (h : Change w w') : Change w (w'.record e) := by
  cases h with
  | keep hcrs huid => exact .keep hcrs huid
  | advance n hcrs huid => exact .advance n hcrs huid
  | create hnone hb hst hdt hcrs huid => exact .create hnone hb hst hdt hcrs huid
  | succ hcur hs hcrs huid => exact .succ hcur hs hcrs huid
  | remove hcrs huid => exact .remove hcrs huid

theorem Change.of_record {w w' : World} {e : Event} (h : Change (w.record e) w') : Change w w' := by
  cases h with
  | keep hcrs huid => exact .keep hcrs huid
  | advance n hcrs huid => exact .advance n hcrs huid
  | create hnone hb hst hdt hcrs huid => exact .create hnone hb hst hdt hcrs huid
  | succ hcur hs hcrs huid => exact .succ hcur hs hcrs huid
  | remove hcrs huid => exact .remove hcrs huid

theorem serveStatusUpdate_change {w : World} (hinv : Inv w) {v : DatabaseBranch}
    (hv : v ∈ w.crs.versions) {st : DatabaseBranchStatus} (hw : StatusWrite w.reading v st) :
    Change w (serveStatusUpdate w { v with status := st }).2 := by
  refine serveStatusUpdate_elim (P := Change w) (fun _ _ => Change.record) (.keep rfl rfl)
    fun cur hacc => ?_
  obtain ⟨rfl, hobj⟩ := accept_version hinv hv rfl hacc
  have hs : Succ cur { cur with status := st } := .write w.reading rfl rfl hw
  exact w.replace_change hobj hs

theorem serveUpdate_change {w : World} (hinv : Inv w) {v b : DatabaseBranch}
    (hv : v ∈ w.crs.versions) (hb : b.resourceVersion = v.resourceVersion) :
    Change w (serveUpdate w b).2 := by
  refine serveUpdate_elim (P := Change w) (fun _ _ => Change.record) (.keep rfl rfl)
    fun cur hacc => ?_
  obtain ⟨rfl, hobj⟩ := accept_version hinv hv hb hacc
  have hs : Succ cur { cur with spec := b.spec, finalizers := b.finalizers } := .keep rfl rfl id
  exact w.replace_change hobj hs

theorem resourceVersion_addFinalizer (b : DatabaseBranch) :
    b.addFinalizer.resourceVersion = b.resourceVersion := by
  unfold DatabaseBranch.addFinalizer
  split <;> rfl

/-- What a call does to the CRs: nothing, or what the API server does when it serves it. -/
inductive Served (w : World) : Call → World → Prop
  | same {e : Call} {w' : World} : w'.crs = w.crs → w'.nextUID = w.nextUID → Served w e w'
  | update (b : DatabaseBranch) : Served w (.client (.update b)) (serveUpdate w b).2
  | statusUpdate (b : DatabaseBranch) :
      Served w (.client (.statusUpdate b)) (serveStatusUpdate w b).2
  | delete (b : DatabaseBranch) :
      Served w (.client (.delete b)) (serveDelete (w.record (.deleteIssued w.run b w.clock))).2

theorem exec_served {e : Call} {w w' : World} {r : e.Reply} (hex : Exec S e w r w') :
    Served w e w' := by
  cases exec_effect hex with
  | quiet | logged => exact .same rfl rfl
  | update b => exact .update b
  | statusUpdate b => exact .statusUpdate b
  | delete b => exact .delete b

/-- A call that meets its guarantee changes the stored CR in one of the ways of `Change`. -/
theorem exec_change {e : Call} {w w' : World} {r : e.Reply} (hinv : Inv w) (hg : Guar e w)
    (hex : Exec S e w r w') : Change w w' := by
  cases exec_served hex with
  | same hcrs huid => exact .keep hcrs huid
  | update b =>
      obtain ⟨v, hv, -, hb⟩ := hg
      refine serveUpdate_change hinv hv ?_
      rcases hb with ⟨-, rfl⟩ | ⟨-, rfl, -⟩
      · exact resourceVersion_addFinalizer v
      · rfl
  | statusUpdate b =>
      obtain ⟨v, hv, -, st, hw, rfl⟩ := hg
      exact serveStatusUpdate_change hinv hv hw
  | delete b => exact (serveDelete_change _).of_record

end BranchDB.Operator

/-
# `BranchDB.Operator.Undisturbed` — a Reconcile with nobody in its way

Nobody edits the CR, and the API server, the agent and the cluster do what they are asked;
others go about their business, and the clock goes on.  What they do, and what the calls are
answered, are the `Surroundings`.  Such a Reconcile is a `Round`.  What it makes of the stored CR
is one of the ways of `Advance` (`Round.advance`):

    being deleted, ours            released    stopped, clone deleted, finalizer dropped
    being deleted, not ours        ignored
    Ready, expired                 expired     marked for deletion
    without our finalizer          adopted     the finalizer is added
    Ready                          resting
    else                           made        cloned, started, Ready
-/
import BranchDB.Operator.Healthy

namespace BranchDB.Operator

open Concur Relation

/-! ## Undisturbed runs -/

/-- The API server answering a client whose reads are up to date. -/
def serveStored : (c : ClientCall) → World → c.Reply × World
  | .get _, w =>
    match w.crs.obj with
    | some b => (.ok b, { w with handling := some b.uid })
    | none => (.error errNotFound, w)
  | .update b, w => serveUpdate w b
  | .statusUpdate b, w => serveStatusUpdate w b
  | .delete b, w => serveDelete (w.record (.deleteIssued w.run b w.clock))

/-- The call was carried out, and answered. -/
def Answered : (e : Call) → World → e.Reply → World → Prop
  | .client c, w, r, w' => r = (serveStored c w).1 ∧ w' = (serveStored c w).2
  | .volume (.createClone ..), _, r, _ => ∃ vol, r = .ok vol
  | .volume (.deleteClone ..), _, r, _ => r = .ok ()
  | .database (.start ..), _, r, _ => ∃ dbInfo, r = .ok dbInfo
  | .database (.stop _), _, r, _ => r = .ok ()
  | _, _, _, _ => True

/-- Nobody edits the CR. -/
def Untouched (w w' : World) : Prop := w'.crs.obj = w.crs.obj

/-- What surrounds Reconciles that are left alone: what others do, and what the calls are
answered. -/
structure Surroundings (S : Setting) where
  moves : World → World → Prop
  answers : (e : Call) → e.Reply → Prop
  env {w w' : World} : moves w w' → Env S w w'
  untouched {w w' : World} : moves w w' → Untouched w w'

/-- Nobody else makes a clone of the branch's name. -/
def Surroundings.Cloneless {S : Setting} (V : Surroundings S) : Prop :=
  ∀ w w' d, V.moves w w' → w.clones d = none → w'.clones d = none

/-- The runs in which the CR is left alone and all goes well. -/
def undisturbed {S : Setting} (V : Surroundings S) (externalHost : String) :
    System Call Call.Reply World Outcome :=
  (system S (reconcile (reconciler externalHost) S.name)).restrict
    (fun e w r w' => Answered e w r w' ∧ V.answers e r) V.moves

/-- A whole Reconcile of such a run. -/
def Round {S : Setting} (V : Surroundings S) (externalHost : String) (w w' : World) : Prop :=
  ∃ out, (undisturbed V externalHost).Runs (reconcile (reconciler externalHost) S.name) w.started
    out w'

variable {S : Setting} {V : Surroundings S} {externalHost : String} {w w' : World}
  {b : DatabaseBranch}

/-- What others do meanwhile. -/
structure Meanwhile (V : Surroundings S) (w w' : World) : Prop where
  obj : w'.crs.obj = w.crs.obj
  clock : w.clock ≤ w'.clock
  owned : ∀ d u, w'.clones d = some (some u) → w.clones d = some (some u)
  none : V.Cloneless → ∀ d, w.clones d = none → w'.clones d = none

theorem Meanwhile.refl (w : World) : Meanwhile V w w :=
  ⟨rfl, Int.le_refl _, fun _ _ => id, fun _ _ => id⟩

theorem Meanwhile.trans {w₁ : World} (h₁ : Meanwhile V w w₁) (h₂ : Meanwhile V w₁ w') :
    Meanwhile V w w' where
  obj := h₂.obj.trans h₁.obj
  clock := Int.le_trans h₁.clock h₂.clock
  owned d u hd := h₁.owned d u (h₂.owned d u hd)
  none hV d hd := h₂.none hV d (h₁.none hV d hd)

theorem Env.owned (h : Env S w w') {d : String} {u : Nat} (hd : w'.clones d = some (some u)) :
    w.clones d = some (some u) := by
  cases h with
  | agent hclones => exact hclones d u hd
  | @edit cur spec finalizers _ _ _ =>
      obtain ⟨crs, hframe⟩ := w.replace_frame cur { cur with spec, finalizers }
      rwa [hframe] at hd
  | delete =>
      obtain ⟨crs, hframe⟩ := serveDelete_frame w
      rwa [hframe] at hd
  | create | tick | elsewhere | cluster => exact hd

theorem meanwhile_move (h : V.moves w w') : Meanwhile V w w' :=
  ⟨V.untouched h, (V.env h).clock, fun _ _ => (V.env h).owned, fun hV d => hV w w' d h⟩

theorem meanwhile (h : ReflTransGen (undisturbed V externalHost).env w w') : Meanwhile V w w' := by
  induction h with
  | refl => exact .refl w
  | tail _ he ih => exact ih.trans (meanwhile_move he.2)

/-! ## The calls -/

/-- No call has to be justified. -/
def unguarded : Contract Call World := ⟨fun _ => True, fun _ _ => True⟩

/-- What an undisturbed program ends in. -/
abbrev Ensures (V : Surroundings S) (externalHost : String) (p : Prog Call Call.Reply Outcome)
    (w : World) (post : World → Prop) : Prop :=
  (undisturbed V externalHost).Holds unguarded (fun _ => post) p w

theorem ensures_client {post : World → Prop} {c : ClientCall}
    {k : c.Reply → Prog Call Call.Reply Outcome}
    (h : ∀ w₁, Meanwhile V w w₁ → Ensures V externalHost (k (serveStored c w₁).1)
      (serveStored c w₁).2 post) :
    Ensures V externalHost (.call (.client c) k) w post := by
  intro w₁ henv _
  refine ⟨trivial, ?_⟩
  intro r w₂ hexec _
  obtain ⟨rfl, rfl⟩ := (show r = _ ∧ w₂ = _ from hexec.2.1)
  exact h w₁ (meanwhile henv)

/-- Calls of the providers leave the CR alone. -/
theorem ensures_provider {post : World → Prop} {e : Call}
    {k : e.Reply → Prog Call Call.Reply Outcome}
    (h : ∀ w₁ r w₂, Meanwhile V w w₁ → Exec S e w₁ r w₂ → Answered e w₁ r w₂ → V.answers e r →
      Ensures V externalHost (k r) w₂ post) :
    Ensures V externalHost (.call e k) w post := by
  intro w₁ henv _
  refine ⟨trivial, ?_⟩
  intro r w₂ hexec _
  exact h w₁ r w₂ (meanwhile henv) hexec.1 hexec.2.1 hexec.2.2

/-! ## Writes of the stored CR -/

/-- `b'` is `b` with another status, as a write may have left it. -/
structure Updated (b : DatabaseBranch) (st : DatabaseBranchStatus) (b' : DatabaseBranch) :
    Prop where
  name : b'.name = b.name
  uid : b'.uid = b.uid
  deletionTimestamp : b'.deletionTimestamp = b.deletionTimestamp
  finalizers : b'.finalizers = b.finalizers
  spec : b'.spec = b.spec
  status : b'.status = st

theorem Updated.protected {st : DatabaseBranchStatus} {b' : DatabaseBranch}
    (h : Updated b st b') : b'.Protected ↔ b.Protected := by
  unfold DatabaseBranch.Protected
  rw [h.finalizers]

theorem Updated.trans {b₁ b₂ : DatabaseBranch} {st st' : DatabaseBranchStatus}
    (h : Updated b st b₁) (h' : Updated b₁ st' b₂) : Updated b st' b₂ where
  name := h'.name.trans h.name
  uid := h'.uid.trans h.uid
  deletionTimestamp := h'.deletionTimestamp.trans h.deletionTimestamp
  finalizers := h'.finalizers.trans h.finalizers
  spec := h'.spec.trans h.spec
  status := h'.status

/-- A write left `b'` stored, and did nothing else. -/
structure Leaves (w w' : World) (b' : DatabaseBranch) : Prop where
  obj : w'.crs.obj = some b'
  clock : w'.clock = w.clock
  clones : w'.clones = w.clones

theorem accept_stored {v : DatabaseBranch} (hobj : w.crs.obj = some b) (huid : v.uid = b.uid)
    (hversion : v.resourceVersion = b.resourceVersion) : accept w v = .ok b := by
  rw [accept, hobj]
  exact if_pos ⟨huid.symm, hversion.symm⟩

theorem replace_stored {new : DatabaseBranch} (hobj : w.crs.obj = some b)
    (hkept : ¬ (new.deletionTimestamp.isSome ∧ new.finalizers = [])) :
    Leaves w (w.replace b new).2 (w.replace b new).1 := by
  have hr := w.replaced b new
  generalize w.replace b new = served at hr
  cases hr with
  | same => exact ⟨hobj, rfl, rfl⟩
  | removed hdel hfin => exact absurd ⟨hdel, hfin⟩ hkept
  | stored => exact ⟨rfl, rfl, rfl⟩

/-- A status write of a client that holds the stored CR. -/
theorem statusUpdate_stored (hobj : w.crs.obj = some b) (hprot : b.Protected)
    (st : DatabaseBranchStatus) : ∃ b', (serveStatusUpdate w { b with status := st }).1 = .ok b' ∧
      Updated b st b' ∧ Leaves w (serveStatusUpdate w { b with status := st }).2 b' := by
  have hkept : ¬ (b.deletionTimestamp.isSome ∧ b.finalizers = []) := by
    rintro ⟨-, hnil⟩
    rw [DatabaseBranch.Protected, hnil] at hprot
    cases hprot
  have hacc : accept w { b with status := st } = .ok b := accept_stored hobj rfl rfl
  have hleaves : Leaves w (w.replace b { b with status := st }).2
      (w.replace b { b with status := st }).1 := replace_stored hobj hkept
  refine ⟨(w.replace b { b with status := st }).1, ?_, ?_, ?_⟩
  · rw [serveStatusUpdate, hacc]
  · rw [w.replace_fst b { b with status := st }]
    exact ⟨rfl, rfl, rfl, rfl, rfl, rfl⟩
  · rw [serveStatusUpdate, hacc]
    exact ⟨hleaves.obj, hleaves.clock, hleaves.clones⟩

/-! ## The creation flow -/

/-- `expires` is the TTL of `b` after a time from `since` to `till`. -/
structure ExpiresFrom (b : DatabaseBranch) (since till : Int) (expires : Option Int) : Prop where
  ttl : 0 < b.spec.ttlHours → ∃ t, since ≤ t ∧ t ≤ till ∧
    expires = some (newTime (t + duration b.spec.ttlHours hour))
  noTtl : b.spec.ttlHours ≤ 0 → expires = b.status.expiresAt

theorem ExpiresFrom.mono {since since' till till' : Int} {expires : Option Int}
    (h : ExpiresFrom b since till expires) (hsince : since' ≤ since) (htill : till ≤ till') :
    ExpiresFrom b since' till' expires := by
  refine ⟨?_, h.noTtl⟩
  intro hpos
  obtain ⟨t, hfrom, hto, hexp⟩ := h.ttl hpos
  exact ⟨t, Int.le_trans hsince hfrom, Int.le_trans hto htill, hexp⟩

/-- What CreateClone and Start answered for `b`, and the status that says so. -/
inductive Provided (V : Surroundings S) (externalHost : String) (b : DatabaseBranch) :
    DatabaseBranchStatus → Prop
  | ready {vol : VolumeInfo} {dbInfo : BranchEndpoint} (expires : Option Int) :
      V.answers (.volume (.createClone b.spec.databaseType b.spec.snapshotRef b.name)) (.ok vol) →
      V.answers (.database (.start b.name vol b.spec.databaseType b.spec.databaseVersion))
        (.ok dbInfo) →
      Provided V externalHost b (readyStatus dbInfo externalHost expires)

theorem Provided.phase {st : DatabaseBranchStatus} (h : Provided V externalHost b st) :
    st.phase = .ready := by
  cases h with
  | ready => rfl

theorem Provided.of_same {b₁ : DatabaseBranch} {st : DatabaseBranchStatus}
    (h : Provided V externalHost b₁ st) (hname : b₁.name = b.name) (hspec : b₁.spec = b.spec) :
    Provided V externalHost b st := by
  cases h with
  | ready expires hvol hstart =>
      rw [hname, hspec] at hvol hstart
      exact .ready expires hvol hstart

/-- The branch `b` was recorded as Ready from `since` to `till`, and is `b'` since. -/
structure MadeReady (V : Surroundings S) (externalHost : String) (b : DatabaseBranch)
    (since till : Int) (b' : DatabaseBranch) : Prop where
  updated : Updated b b'.status b'
  provided : Provided V externalHost b b'.status
  expiry : ExpiresFrom b since till b'.status.expiresAt

theorem MadeReady.phase {since till : Int} {b' : DatabaseBranch}
    (h : MadeReady V externalHost b since till b') : b'.status.phase = .ready :=
  h.provided.phase

theorem MadeReady.mono {since since' till till' : Int} {b' : DatabaseBranch}
    (h : MadeReady V externalHost b since till b') (hsince : since' ≤ since)
    (htill : till ≤ till') : MadeReady V externalHost b since' till' b' :=
  ⟨h.updated, h.provided, h.expiry.mono hsince htill⟩

/-- What was made of another version of the branch with the same spec and expiry. -/
theorem MadeReady.of_updated {since till : Int} {b₁ b' : DatabaseBranch}
    {st : DatabaseBranchStatus} (h : MadeReady V externalHost b₁ since till b')
    (hupdated : Updated b st b₁) (hexpires : st.expiresAt = b.status.expiresAt) :
    MadeReady V externalHost b since till b' := by
  refine ⟨hupdated.trans h.updated, ?_, ?_⟩
  · exact h.provided.of_same hupdated.name hupdated.spec
  · refine ⟨hupdated.spec ▸ h.expiry.ttl, ?_⟩
    intro hle
    rw [h.expiry.noTtl (hupdated.spec ▸ hle), hupdated.status, hexpires]

theorem ensures_markReady {status : DatabaseBranchStatus} {post : World → Prop}
    (hobj : w.crs.obj = some b) (hprot : b.Protected)
    (hpost : ∀ b' w', Updated b status b' → w'.crs.obj = some b' → w.clock ≤ w'.clock → post w') :
    Ensures V externalHost (markReady (reconciler externalHost) b status) w post := by
  refine ensures_client ?_
  intro w₁ hw₁
  obtain ⟨b', hok, hupdated, hleaves⟩ :=
    statusUpdate_stored (hw₁.obj.trans hobj) hprot status
  have hreply : (serveStored (.statusUpdate { b with status }) w₁).1 = .ok b' := hok
  rw [hreply]
  exact hpost b' _ hupdated hleaves.obj (Int.le_trans hw₁.clock (Int.le_of_eq hleaves.clock.symm))

theorem createClone_clock (dbType snapshot cloneName : String) {r : Except GoError VolumeInfo}
    (h : VolumeExec S (.createClone dbType snapshot cloneName) w r w') : w'.clock = w.clock := by
  obtain ⟨served, hserved, hout⟩ := h
  refine Outcome.elim (P := fun w' => w'.clock = w.clock) hout rfl ?_
  cases hserved with
  | made | present | failed => exact rfl

section

variable {since : Int} {vol : VolumeInfo} {post : World → Prop}

theorem ensures_recordReady {dbInfo : BranchEndpoint} (hobj : w.crs.obj = some b)
    (hprot : b.Protected) (hsince : since ≤ w.clock)
    (hprovided : ∀ expires, Provided V externalHost b (readyStatus dbInfo externalHost expires))
    (hpost : ∀ b' w', MadeReady V externalHost b since w'.clock b' → w'.crs.obj = some b' →
      post w') :
    Ensures V externalHost (recordReady (reconciler externalHost) b dbInfo) w post := by
  unfold recordReady expiresAt
  by_cases httl : b.spec.ttlHours > 0
  · rw [if_pos httl]
    refine ensures_provider ?_
    rintro w₁ t w₂ hw₁ ⟨rfl, rfl⟩ - -
    refine ensures_markReady (hw₁.obj.trans hobj) hprot ?_
    intro b' w' hupdated hobj' hclock
    have hstatus := hupdated.status
    refine hpost b' w' ⟨hstatus ▸ hupdated, hstatus ▸ hprovided _, ?_, ?_⟩ hobj'
    · intro _
      exact ⟨w₁.clock, Int.le_trans hsince hw₁.clock, hclock, hstatus ▸ rfl⟩
    · intro hle
      exact absurd httl (Int.not_lt.mpr hle)
  · rw [if_neg httl]
    refine ensures_markReady hobj hprot ?_
    intro b' w' hupdated hobj' _
    have hstatus := hupdated.status
    refine hpost b' w' ⟨hstatus ▸ hupdated, hstatus ▸ hprovided _, ?_, ?_⟩ hobj'
    · intro hpos
      exact absurd hpos httl
    · intro _
      exact hstatus ▸ rfl

theorem ensures_createVolume (hobj : w.crs.obj = some b) (hprot : b.Protected)
    (hsince : since ≤ w.clock)
    (hpost : ∀ b' w', MadeReady V externalHost b since w'.clock b' → w'.crs.obj = some b' →
      post w') :
    Ensures V externalHost (createVolume (reconciler externalHost) b) w post := by
  refine ensures_provider ?_
  rintro w₁ _ w₂ hw₁ hclone ⟨vol, rfl⟩ hvol
  have hu : Unmoved w₁ w₂ :=
    createClone_unmoved b.spec.databaseType b.spec.snapshotRef b.name hclone
  have hclock : w₂.clock = w₁.clock :=
    createClone_clock b.spec.databaseType b.spec.snapshotRef b.name hclone
  refine ensures_provider ?_
  rintro w₃ _ w₄ hw₃ ⟨cluster, rfl⟩ ⟨dbInfo, rfl⟩ hstart
  have hobj₃ : w₃.crs.obj = some b :=
    hw₃.obj.trans ((congrArg Register.obj hu.crs).trans (hw₁.obj.trans hobj))
  have hsince₃ : since ≤ w₃.clock := by
    have h₁ := hw₁.clock
    have h₃ := hw₃.clock
    omega
  exact ensures_recordReady hobj₃ hprot hsince₃ (fun expires => .ready expires hvol hstart) hpost

/-- A live CR that is not Ready becomes Ready. -/
theorem ensures_createBranch (hobj : w.crs.obj = some b) (hprot : b.Protected)
    (hpost : ∀ b' w', MadeReady V externalHost b w.clock w'.clock b' → w'.crs.obj = some b' →
      post w') :
    Ensures V externalHost (createBranch (reconciler externalHost) b) w post := by
  refine ensures_client ?_
  intro w₁ hw₁
  obtain ⟨b₁, hok, hupdated, hleaves⟩ := statusUpdate_stored (hw₁.obj.trans hobj) hprot
    { b.status with phase := .creating }
  have hreply : (serveStored (.statusUpdate
      { b with status := { b.status with phase := .creating } }) w₁).1 = .ok b₁ := hok
  rw [hreply]
  have hsince : w.clock ≤ (serveStatusUpdate w₁
      { b with status := { b.status with phase := .creating } }).2.clock := by
    rw [hleaves.clock]
    exact hw₁.clock
  refine ensures_createVolume hleaves.obj (hupdated.protected.mpr hprot) hsince ?_
  intro b' w' hready hobj'
  exact hpost b' w' (hready.of_updated hupdated rfl) hobj'

end

/-! ## The deletion flow -/

/-- In the dataset is no clone that was made for a CR, and none at all where nobody else makes
clones of the branch's name. -/
structure NoClone (V : Surroundings S) (d : String) (w : World) : Prop where
  owned : ∀ u, w.clones d ≠ some (some u)
  none : V.Cloneless → w.clones d = none

theorem NoClone.meanwhile {d : String} (h : NoClone V d w) (hw : Meanwhile V w w') :
    NoClone V d w' :=
  ⟨fun u hd => h.owned u (hw.owned d u hd), fun hV => hw.none hV d (h.none hV)⟩

theorem NoClone.of_clones {d : String} (h : NoClone V d w) (hclones : w'.clones = w.clones) :
    NoClone V d w' :=
  ⟨hclones ▸ h.owned, hclones ▸ h.none⟩

/-- Our part in the CR `b` is over: it is gone, or others keep it. -/
inductive GivenUp (b : DatabaseBranch) (w : World) : Prop
  | gone : w.crs.obj = none → GivenUp b w
  | kept {b' : DatabaseBranch} : w.crs.obj = some b' → b'.uid = b.uid →
      b'.deletionTimestamp.isSome → ¬ b'.Protected → b.removeFinalizer.finalizers ≠ [] → GivenUp b w

/-- The finalizer of a CR that is being deleted is removed. -/
theorem update_released (hobj : w.crs.obj = some b) (hdel : b.deletionTimestamp.isSome)
    (hprot : b.Protected) : ∃ b', (serveUpdate w b.removeFinalizer).1 = .ok b' ∧
      GivenUp b (serveUpdate w b.removeFinalizer).2 ∧
      (serveUpdate w b.removeFinalizer).2.clones = w.clones := by
  have hnot : ¬ b.removeFinalizer.Protected := DatabaseBranch.not_protected_removeFinalizer
  have hne : b.removeFinalizer ≠ b := by
    intro he
    rw [he] at hnot
    exact hnot hprot
  have hacc : accept w b.removeFinalizer = .ok b := accept_stored hobj rfl rfl
  have hcond : b.containsFinalizer ∧ finalizerName ∉ b.removeFinalizer.finalizers :=
    ⟨DatabaseBranch.containsFinalizer_iff.mpr hprot, hnot⟩
  have hserved : serveUpdate w b.removeFinalizer = (.ok (w.replace b b.removeFinalizer).1,
      (w.replace b b.removeFinalizer).2.record (.finalizerRemoved w.run b.uid)) := by
    rw [serveUpdate, hacc]
    exact if_pos hcond
  rw [hserved]
  refine ⟨_, rfl, ?_⟩
  rw [World.replace, if_neg hne]
  split
  · exact ⟨.gone rfl, rfl⟩
  · next hkept => exact ⟨.kept rfl rfl hdel hnot fun hnil => hkept ⟨hdel, hnil⟩, rfl⟩

theorem GivenUp.of_updated {st : DatabaseBranchStatus} {b₁ : DatabaseBranch}
    (hupdated : Updated b st b₁) (h : GivenUp b₁ w) : GivenUp b w := by
  have hfinalizers : b₁.removeFinalizer.finalizers = b.removeFinalizer.finalizers := by
    unfold DatabaseBranch.removeFinalizer
    rw [hupdated.finalizers]
  cases h with
  | gone hnone => exact .gone hnone
  | kept hobj huid hdel hnot hne =>
      exact .kept hobj (huid.trans hupdated.uid) hdel hnot (hfinalizers ▸ hne)

theorem deleteClone_gone (dbType cloneName : String)
    (h : VolumeExec S (.deleteClone dbType cloneName) w (.ok ()) w') :
    w'.crs = w.crs ∧ w'.clones (S.dataset dbType) = none := by
  obtain ⟨served, w₁, hserved, hout, rfl⟩ := h
  obtain rfl := Outcome.of_ok hout
  cases hserved with
  | gone => exact ⟨rfl, Function.update_self ..⟩

/-- The cleanup of a CR that is stored as it was read. -/
theorem ensures_stopDatabase {post : World → Prop} (hobj : w.crs.obj = some b)
    (hdel : b.deletionTimestamp.isSome) (hprot : b.Protected)
    (hpost : ∀ w', GivenUp b w' → NoClone V (S.dataset b.spec.databaseType) w' → post w') :
    Ensures V externalHost (stopDatabase (reconciler externalHost) b) w post := by
  refine ensures_provider ?_
  rintro w₁ _ w₂ hw₁ ⟨cluster, rfl⟩ rfl -
  refine ensures_provider ?_
  rintro w₃ _ w₄ hw₃ hdeleted rfl -
  obtain ⟨hcrs, hclone⟩ := deleteClone_gone b.spec.databaseType b.name hdeleted
  have hnone : NoClone V (S.dataset b.spec.databaseType) w₄ := ⟨by simp [hclone], fun _ => hclone⟩
  refine ensures_client ?_
  intro w₅ hw₅
  have hobj₅ : w₅.crs.obj = some b :=
    hw₅.obj.trans ((congrArg Register.obj hcrs).trans (hw₃.obj.trans (hw₁.obj.trans hobj)))
  obtain ⟨b', hok, hgiven, hclones⟩ := update_released hobj₅ hdel hprot
  have hreply : (serveStored (.update b.removeFinalizer) w₅).1 = .ok b' := hok
  rw [hreply]
  exact hpost _ hgiven ((hnone.meanwhile hw₅).of_clones hclones)

/-- A CR that is being deleted and has our finalizer is given up. -/
theorem ensures_handleDeletion {post : World → Prop} (hobj : w.crs.obj = some b)
    (hdel : b.deletionTimestamp.isSome) (hprot : b.Protected)
    (hpost : ∀ w', GivenUp b w' → NoClone V (S.dataset b.spec.databaseType) w' → post w') :
    Ensures V externalHost (handleDeletion (reconciler externalHost) b) w post := by
  unfold handleDeletion
  rw [DatabaseBranch.containsFinalizer_iff.mpr hprot]
  refine ensures_client ?_
  intro w₁ hw₁
  obtain ⟨b₁, hok, hupdated, hleaves⟩ := statusUpdate_stored (hw₁.obj.trans hobj) hprot
    { b.status with phase := .deleting }
  have hreply : (serveStored (.statusUpdate
      { b with status := { b.status with phase := .deleting } }) w₁).1 = .ok b₁ := hok
  rw [hreply]
  refine ensures_stopDatabase hleaves.obj (hupdated.deletionTimestamp ▸ hdel)
    (hupdated.protected.mpr hprot) ?_
  intro w' hgiven hnone
  exact hpost w' (hgiven.of_updated hupdated) (hupdated.spec ▸ hnone)

/-! ## One Reconcile -/

/-- At the time `t` the branch is Ready and its expiry has passed. -/
def Lapsed (t : Int) (b : DatabaseBranch) : Prop :=
  b.status.phase = .ready ∧ ∃ e, b.status.expiresAt = some e ∧ after t e = true

/-- The branch `b` is marked for deletion, or gone if nothing kept it. -/
inductive Marked (b : DatabaseBranch) (w : World) : Prop
  | gone : w.crs.obj = none → b.finalizers = [] → Marked b w
  | kept {b' : DatabaseBranch} : w.crs.obj = some b' → b'.uid = b.uid →
      b'.deletionTimestamp.isSome → b'.finalizers = b.finalizers → b'.spec = b.spec → Marked b w

/-- The branch `b'` is `b` with our finalizer. -/
structure Adopted (b b' : DatabaseBranch) : Prop where
  name : b'.name = b.name
  finalizers : b'.finalizers = b.finalizers ++ [finalizerName]
  uid : b'.uid = b.uid
  deletionTimestamp : b'.deletionTimestamp = b.deletionTimestamp
  spec : b'.spec = b.spec
  status : b'.status = b.status

theorem Adopted.prot {b' : DatabaseBranch} (h : Adopted b b') : b'.Protected := by
  rw [DatabaseBranch.Protected, h.finalizers]
  exact List.mem_append_right _ (List.mem_singleton_self _)

/-- What a Reconcile makes of a stored CR `b`. -/
inductive Advance (V : Surroundings S) (externalHost : String) (b : DatabaseBranch)
    (w w' : World) : Prop
  | released : b.deletionTimestamp.isSome → b.Protected → GivenUp b w' →
      NoClone V (S.dataset b.spec.databaseType) w' → Advance V externalHost b w w'
  | ignored : b.deletionTimestamp.isSome → ¬ b.Protected → w'.crs.obj = some b →
      Advance V externalHost b w w'
  | expired {t : Int} : b.deletionTimestamp = none → w.clock ≤ t → t ≤ w'.clock → Lapsed t b →
      Marked b w' → Advance V externalHost b w w'
  | adopted {b' : DatabaseBranch} : b.deletionTimestamp = none → ¬ b.Protected → Adopted b b' →
      w'.crs.obj = some b' → Advance V externalHost b w w'
  | resting {t : Int} : b.deletionTimestamp = none → b.Protected → b.status.phase = .ready →
      w.clock ≤ t → t ≤ w'.clock → ¬ Lapsed t b → w'.crs.obj = some b →
      Advance V externalHost b w w'
  | made {b' : DatabaseBranch} : b.deletionTimestamp = none → b.Protected →
      b.status.phase ≠ .ready → MadeReady V externalHost b w.clock w'.clock b' →
      w'.crs.obj = some b' → Advance V externalHost b w w'

theorem Advance.later {w₁ : World} (h : Advance V externalHost b w w₁) (hw : Meanwhile V w₁ w') :
    Advance V externalHost b w w' := by
  cases h with
  | released hdel hprot hgiven hnone =>
      refine .released hdel hprot ?_ (hnone.meanwhile hw)
      cases hgiven with
      | gone hobj => exact .gone (hw.obj.trans hobj)
      | kept hobj huid hdel' hnot hne => exact .kept (hw.obj.trans hobj) huid hdel' hnot hne
  | ignored hdel hprot hobj => exact .ignored hdel hprot (hw.obj.trans hobj)
  | expired hdel hfrom hto hlapsed hmarked =>
      refine .expired hdel hfrom (Int.le_trans hto hw.clock) hlapsed ?_
      cases hmarked with
      | gone hobj hnil => exact .gone (hw.obj.trans hobj) hnil
      | kept hobj huid hdel' hfin hspec => exact .kept (hw.obj.trans hobj) huid hdel' hfin hspec
  | adopted hdel hprot hadopted hobj => exact .adopted hdel hprot hadopted (hw.obj.trans hobj)
  | resting hdel hprot hready hfrom hto hlapsed hobj =>
      exact .resting hdel hprot hready hfrom (Int.le_trans hto hw.clock) hlapsed
        (hw.obj.trans hobj)
  | made hdel hprot hready hmade hobj =>
      exact .made hdel hprot hready (hmade.mono (Int.le_refl _) hw.clock) (hw.obj.trans hobj)

theorem Advance.since {w₁ : World} (h : Advance V externalHost b w₁ w') (hw : w.clock ≤ w₁.clock) :
    Advance V externalHost b w w' := by
  cases h with
  | released hdel hprot hgiven hnone => exact .released hdel hprot hgiven hnone
  | ignored hdel hprot hobj => exact .ignored hdel hprot hobj
  | expired hdel hfrom hto hlapsed hmarked =>
      exact .expired hdel (Int.le_trans hw hfrom) hto hlapsed hmarked
  | adopted hdel hprot hadopted hobj => exact .adopted hdel hprot hadopted hobj
  | resting hdel hprot hready hfrom hto hlapsed hobj =>
      exact .resting hdel hprot hready (Int.le_trans hw hfrom) hto hlapsed hobj
  | made hdel hprot hready hmade hobj =>
      exact .made hdel hprot hready (hmade.mono hw (Int.le_refl _)) hobj

theorem ensures_expired {post : World → Prop} {f : Bool → Prog Call Call.Reply Outcome}
    (h : ∀ yes t w₁, Meanwhile V w w₁ → w.clock ≤ t → t ≤ w₁.clock → (yes = true ↔ Lapsed t b) →
      Ensures V externalHost (f yes) w₁ post) :
    Ensures V externalHost (expired (reconciler externalHost) b >>= f) w post := by
  have hsame : Meanwhile V w w := .refl w
  have hno : ¬ Lapsed w.clock b → Ensures V externalHost (f false) w post := fun hnot =>
    h false w.clock w hsame (Int.le_refl _) (Int.le_refl _) (iff_of_false Bool.false_ne_true hnot)
  unfold expired
  cases hexp : b.status.expiresAt with
  | none =>
      refine hno ?_
      rintro ⟨-, e, he, -⟩
      rw [hexp] at he
      cases he
  | some e =>
      by_cases hready : b.status.phase = .ready
      · simp only [if_pos hready]
        refine ensures_provider ?_
        rintro w₁ t w₂ hw₁ ⟨rfl, rfl⟩ - -
        refine h _ w₁.clock _ ⟨hw₁.obj, hw₁.clock, hw₁.owned, hw₁.none⟩ hw₁.clock (Int.le_refl _) ?_
        constructor
        · exact fun hafter => ⟨hready, e, hexp, hafter⟩
        · rintro ⟨-, e', he', hafter⟩
          cases hexp.symm.trans he'
          exact hafter
      · simp only [if_neg hready]
        exact hno fun hlapsed => hready hlapsed.1

/-- A Delete of the stored CR. -/
theorem delete_stored (hobj : w.crs.obj = some b) (hdel : b.deletionTimestamp = none) :
    (serveDelete w).1 = .ok () ∧ Marked b (serveDelete w).2 := by
  have hne : ({ b with deletionTimestamp := some (newTime w.clock) } : DatabaseBranch) ≠ b := by
    intro he
    have hmarked := congrArg DatabaseBranch.deletionTimestamp he
    rw [hdel] at hmarked
    cases hmarked
  have hserved : serveDelete w = (.ok (),
      (w.replace b { b with deletionTimestamp := some (newTime w.clock) }).2) := by
    rw [serveDelete, hobj]
    simp [hdel]
  rw [hserved, World.replace, if_neg hne]
  refine ⟨rfl, ?_⟩
  split
  · next hnil => exact .gone rfl hnil.2
  · exact .kept rfl rfl rfl rfl rfl

/-- The finalizer is added to the stored CR. -/
theorem update_adopted (hobj : w.crs.obj = some b) (hdel : b.deletionTimestamp = none)
    (hprot : ¬ b.Protected) : ∃ b', (serveUpdate w b.addFinalizer).1 = .ok b' ∧ Adopted b b' ∧
      (serveUpdate w b.addFinalizer).2.crs.obj = some b' := by
  have hfin : b.containsFinalizer = false :=
    Bool.eq_false_iff.mpr fun h => hprot (DatabaseBranch.containsFinalizer_iff.mp h)
  have hadd : b.addFinalizer = { b with finalizers := b.finalizers ++ [finalizerName] } := by
    rw [DatabaseBranch.addFinalizer, hfin]
    rfl
  have hacc : accept w b.addFinalizer = .ok b := by
    rw [hadd]
    exact accept_stored hobj rfl rfl
  have hkept : ¬ (b.addFinalizer.deletionTimestamp.isSome ∧ b.addFinalizer.finalizers = []) := by
    rw [hadd]
    simp [hdel]
  have hserved : serveUpdate w b.addFinalizer =
      (.ok (w.replace b b.addFinalizer).1, (w.replace b b.addFinalizer).2) := by
    rw [serveUpdate, hacc]
    refine (if_neg fun hcond => hprot ?_).trans ?_
    · exact DatabaseBranch.containsFinalizer_iff.mp hcond.1
    · rw [hadd]
  rw [hserved]
  refine ⟨_, rfl, ?_, (replace_stored hobj hkept).obj⟩
  rw [w.replace_fst]
  refine ⟨?_, ?_, ?_, ?_, ?_, ?_⟩ <;> rw [hadd]

theorem ensures_reconcileLive (hobj : w.crs.obj = some b) (hdel : b.deletionTimestamp = none) :
    Ensures V externalHost (reconcileLive (reconciler externalHost) b) w
      (Advance V externalHost b w) := by
  unfold reconcileLive
  refine ensures_expired ?_
  intro yes t w₁ hw₁ hfrom hto hyes
  have hobj₁ := hw₁.obj.trans hobj
  cases yes with
  | true =>
      refine ensures_client ?_
      intro w₂ hw₂
      have hobj₂ : (w₂.record (.deleteIssued w₂.run b w₂.clock)).crs.obj = some b :=
        hw₂.obj.trans hobj₁
      obtain ⟨hok, hmarked⟩ := delete_stored hobj₂ hdel
      have hreply : (serveStored (.delete b) w₂).1 = .ok () := hok
      rw [hreply]
      refine .expired hdel hfrom (Int.le_trans hto ?_) (hyes.mp rfl) hmarked
      obtain ⟨crs, hframe⟩ := serveDelete_frame (w₂.record (.deleteIssued w₂.run b w₂.clock))
      show w₁.clock ≤ (serveDelete _).2.clock
      rw [hframe]
      exact hw₂.clock
  | false =>
      have hlapsed : ¬ Lapsed t b := fun h => Bool.false_ne_true (hyes.mpr h)
      by_cases hprot : b.Protected
      · have hfin : (!b.containsFinalizer) = false := by
          rw [DatabaseBranch.containsFinalizer_iff.mpr hprot]
          rfl
        simp only [hfin]
        by_cases hready : b.status.phase = .ready
        · simp only [hready]
          exact .resting hdel hprot hready hfrom hto hlapsed hobj₁
        · simp only [hready]
          refine ensures_createBranch hobj₁ hprot ?_
          intro b' w' hmade hobj'
          have hadv : Advance V externalHost b w₁ w' := .made hdel hprot hready hmade hobj'
          exact hadv.since hw₁.clock
      · have hfin : (!b.containsFinalizer) = true := by
          rw [Bool.not_eq_true', Bool.eq_false_iff]
          exact fun h => hprot (DatabaseBranch.containsFinalizer_iff.mp h)
        simp only [hfin]
        refine ensures_client ?_
        intro w₂ hw₂
        obtain ⟨b', hok, hadopted, hobj'⟩ := update_adopted (hw₂.obj.trans hobj₁) hdel hprot
        have hreply : (serveStored (.update b.addFinalizer) w₂).1 = .ok b' := hok
        rw [hreply]
        exact .adopted hdel hprot hadopted hobj'

theorem ensures_reconcile (hobj : w.crs.obj = some b) :
    Ensures V externalHost (reconcile (reconciler externalHost) S.name) w
      (Advance V externalHost b w) := by
  refine ensures_client ?_
  intro w₁ hw₁
  have hobj₁ := hw₁.obj.trans hobj
  have hserved : serveStored (.get S.name) w₁ = (.ok b, { w₁ with handling := some b.uid }) := by
    simp only [serveStored, hobj₁]
  have hobj₂ : ({ w₁ with handling := some b.uid } : World).crs.obj = some b := hobj₁
  rw [hserved]
  show Ensures V externalHost (if b.deletionTimestamp.isSome then
    handleDeletion (reconciler externalHost) b else reconcileLive (reconciler externalHost) b)
    { w₁ with handling := some b.uid } _
  split
  · next hdel =>
    by_cases hprot : b.Protected
    · refine ensures_handleDeletion hobj₂ hdel hprot ?_
      exact fun w' hgiven hnone => .released hdel hprot hgiven hnone
    · have hfin : (!b.containsFinalizer) = true := by
        rw [Bool.not_eq_true', Bool.eq_false_iff]
        exact fun h => hprot (DatabaseBranch.containsFinalizer_iff.mp h)
      unfold handleDeletion
      simp only [hfin]
      exact .ignored hdel hprot hobj₂
  · next hdel =>
    have hnone : b.deletionTimestamp = none := by simpa using hdel
    refine (ensures_reconcileLive hobj₂ hnone).mono ?_
    exact fun _ w' h => h.since hw₁.clock

/-- What an undisturbed Reconcile makes of the stored CR. -/
theorem Round.advance (h : Round V externalHost w w') (hobj : w.crs.obj = some b) :
    Advance V externalHost b w w' := by
  obtain ⟨out, hruns⟩ := h
  have hpost : ∀ (a : Outcome) (s s' : World), Advance V externalHost b w.started s →
      (undisturbed V externalHost).env s s' → Advance V externalHost b w.started s' :=
    fun _ _ _ hadv henv => hadv.later (meanwhile (.single henv))
  have hstarted : w.started.crs.obj = some b := hobj
  have hadv := (ensures_reconcile hstarted).result (fun _ => trivial) hpost hruns
  exact hadv.since (Int.le_refl _)

/-- Where there is no CR, a Reconcile does nothing. -/
theorem Round.absent (h : Round V externalHost w w') (hobj : w.crs.obj = none) :
    Meanwhile V w w' := by
  obtain ⟨out, hruns⟩ := h
  have hensures : Ensures V externalHost (reconcile (reconciler externalHost) S.name) w.started
      (Meanwhile V w.started) := by
    refine ensures_client ?_
    intro w₁ hw₁
    have hobj₁ : w₁.crs.obj = none := hw₁.obj.trans hobj
    have hserved : serveStored (.get S.name) w₁ = (.error errNotFound, w₁) := by
      simp only [serveStored, hobj₁]
    rw [hserved]
    exact hw₁
  have hmeanwhile := hensures.result (fun _ => trivial)
    (fun _ _ _ hw henv => hw.trans (meanwhile (.single henv))) hruns
  exact ⟨hmeanwhile.obj, hmeanwhile.clock, hmeanwhile.owned, hmeanwhile.none⟩

/-! ## The clock -/

theorem exec_clock {e : Call} {r : e.Reply} (h : Exec S e w r w') : w'.clock = w.clock := by
  cases exec_effect h with
  | quiet | logged => rfl
  | update v =>
      obtain ⟨crs, log, hframe⟩ := serveUpdate_frame w v
      rw [hframe]
  | statusUpdate v =>
      obtain ⟨crs, log, hframe⟩ := serveStatusUpdate_frame w v
      rw [hframe]
  | delete v =>
      obtain ⟨crs, hframe⟩ := serveDelete_frame (w.record (.deleteIssued w.run v w.clock))
      rw [hframe]
      rfl

theorem Round.clock (h : Round V externalHost w w') : w.clock ≤ w'.clock := by
  obtain ⟨out, hruns⟩ := h
  have hmono : ∀ {p : Prog Call Call.Reply Outcome} {s s' : World} {a : Outcome},
      (undisturbed V externalHost).Runs p s a s' → s.clock ≤ s'.clock := by
    intro p s s' a hruns
    induction hruns with
    | ret => exact Int.le_refl _
    | env he _ ih => exact Int.le_trans (Env.clock he.1) ih
    | call hexec _ ih => exact Int.le_trans (Int.le_of_eq (exec_clock hexec.1).symm) ih
  have hle : w.started.clock ≤ w'.clock := hmono hruns
  exact hle

/-! ## There is always a round -/

/-- What is stored can be read. -/
def Readable (w : World) : Prop := ∀ b, w.crs.obj = some b → b ∈ w.crs.versions

/-- One way for everything to go well. -/
def serveCalm (S : Setting) : (e : Call) → World → e.Reply × World
  | .client c, w => serveStored c w
  | e, w => serve S e w

/-- The state after a Reconcile that goes that way. -/
def calm (S : Setting) (externalHost : String) (w : World) : World :=
  ((reconcile (reconciler externalHost) S.name).run (serveCalm S) w.started).2

theorem serveCalm_exec (hread : Readable w) (e : Call) :
    Exec S e w (serveCalm S e w).1 (serveCalm S e w).2 ∧
      Answered e w (serveCalm S e w).1 (serveCalm S e w).2 := by
  cases e with
  | client c =>
      refine ⟨?_, rfl, rfl⟩
      cases c with
      | get name =>
          cases hobj : w.crs.obj with
          | none =>
              have hserved : serveStored (.get name) w = (.error errNotFound, w) := by
                simp only [serveStored, hobj]
              show Got w (serveStored (.get name) w).1 (serveStored (.get name) w).2
              rw [hserved]
              exact .failed _
          | some b =>
              have hserved : serveStored (.get name) w =
                  (.ok b, { w with handling := some b.uid }) := by
                simp only [serveStored, hobj]
              show Got w (serveStored (.get name) w).1 (serveStored (.get name) w).2
              rw [hserved]
              exact .version (hread b hobj)
      | update | statusUpdate | delete => exact .answered
  | now => exact ⟨serve_exec .now w, trivial⟩
  | volume c =>
      refine ⟨serve_exec (.volume c) w, ?_⟩
      cases c with
      | createClone dbType snapshot cloneName =>
          show ∃ vol, (serveVolume S (.createClone dbType snapshot cloneName) w).1 = .ok vol
          unfold serveVolume
          dsimp only
          split
          · exact ⟨_, rfl⟩
          · exact ⟨_, rfl⟩
      | deleteClone => exact rfl
      | takeSnapshot | deleteSnapshot | listSnapshots | listClones | gcSnapshots | resetDataset =>
          exact trivial
  | database c =>
      refine ⟨serve_exec (.database c) w, ?_⟩
      cases c with
      | start => exact ⟨_, rfl⟩
      | stop => exact rfl
  | k8s c => exact ⟨serve_exec (.k8s c) w, trivial⟩

theorem Readable.replace {cur new : DatabaseBranch} (h : Readable w) :
    Readable (w.replace cur new).2 := by
  have hr := w.replaced cur new
  generalize w.replace cur new = served at hr
  cases hr with
  | same => exact h
  | removed => exact nofun
  | stored =>
      intro v hv
      cases Option.some.inj hv
      exact List.mem_cons_self

theorem Readable.of_crs (h : Readable w) (hcrs : w'.crs = w.crs) : Readable w' := by
  unfold Readable
  rw [hcrs]
  exact h

theorem readable_serveCalm (h : Readable w) (e : Call) : Readable (serveCalm S e w).2 := by
  cases e with
  | client c =>
      cases c with
      | get name =>
          refine h.of_crs ?_
          show (serveStored (.get name) w).2.crs = w.crs
          dsimp only [serveStored]
          split <;> rfl
      | update v =>
          exact serveUpdate_elim (P := Readable) (fun _ _ => id) h fun _ _ => h.replace
      | statusUpdate v =>
          exact serveStatusUpdate_elim (P := Readable) (fun _ _ => id) h fun _ _ => h.replace
      | delete v =>
          have hrecord : Readable (w.record (.deleteIssued w.run v w.clock)) := h
          exact serveDelete_elim (P := Readable) hrecord fun _ _ => hrecord.replace
  | now => exact h
  | volume c =>
      cases c with
      | createClone dbType snapshot cloneName =>
          refine h.of_crs ?_
          show (serveVolume S (.createClone dbType snapshot cloneName) w).2.crs = w.crs
          unfold serveVolume
          dsimp only
          split <;> rfl
      | deleteClone | takeSnapshot | deleteSnapshot | listSnapshots | listClones | gcSnapshots
      | resetDataset => exact h
  | database c => cases c <;> exact h
  | k8s c => exact h

theorem readable_calm (h : Readable w) : Readable (calm S externalHost w) := by
  have hstep : ∀ (e : Call) (w : World), Readable w → Readable (serveCalm S e w).2 :=
    fun e _ hread => readable_serveCalm hread e
  have hstarted : Readable w.started := h
  exact Prog.run_preserved hstep (reconcile (reconciler externalHost) S.name) hstarted

/-- A Reconcile may find everything well, wherever it starts. -/
theorem round_calm (h : Readable w) (hanswers : ∀ e w, V.answers e (serveCalm S e w).1) :
    Round V externalHost w (calm S externalHost w) := by
  have hstep : ∀ (e : Call) (w : World), Readable w → Readable w ∧ Readable (serveCalm S e w).2 :=
    fun e _ hread => ⟨hread, readable_serveCalm hread e⟩
  have hexec : ∀ (e : Call) (w : World), Readable w → (undisturbed V externalHost).exec e w
      (serveCalm S e w).1 (serveCalm S e w).2 := by
    intro e w hread
    obtain ⟨hcall, hanswered⟩ := serveCalm_exec hread e
    exact ⟨hcall, hanswered, hanswers e w⟩
  have hstarted : Readable w.started := h
  exact ⟨_, .of_serve hexec (.of_preserved hstep _ hstarted)⟩

end BranchDB.Operator

/-
# `BranchDB.Operator.History` — how the stored CR may change

Every move of a run, whoever makes it, changes the stored CR in one of four ways
(`Change`): not at all, by creating a fresh CR, by replacing it with a successor, or
by removing it.  A successor (`Succ`) either keeps the status, or is one of the
status writes the reconciler makes:

    creating      not deleting, not Ready                  phase := Creating
    ready         not deleting, Creating                   the endpoint, phase := Ready
    createError   not deleting, Creating                   phase := Error
    deleting      deletion timestamp set                   phase := Deleting
    deleteError   deletion timestamp set, Deleting         phase := Error

From that alone follow the facts about histories collected in `Inv`: a version of a
CR is never newer than the stored one (`Older`), so a CR once marked for deletion
stays marked, and one that was Ready is Ready or marked, with the endpoint it had.
-/
import BranchDB.Operator.World

namespace BranchDB.Operator

open Concur

/-! ## Status writes -/

/-- The messages `Reconcile` records when creation fails. -/
inductive CreationError : String → Prop
  | clone (err : GoError) : CreationError (err.wrap "create clone").msg
  | database (err : GoError) : CreationError (err.wrap "start database").msg

/-- The messages `handleDeletion` records when cleanup fails. -/
inductive DeletionError : String → Prop
  | database (err : GoError) : DeletionError (err.wrap "stop database").msg
  | clone (err : GoError) : DeletionError (err.wrap "delete clone").msg

/-- `status.expiresAt` as recorded with Ready, when the Reconcile's clock reading is `reading`. -/
inductive Expiry (reading : Option Int) (b : DatabaseBranch) : Option Int → Prop
  | ttl {t : Int} : 0 < b.spec.ttlHours → reading = some t →
      Expiry reading b (some (newTime (t + duration b.spec.ttlHours hour)))
  | none : b.spec.ttlHours ≤ 0 → Expiry reading b b.status.expiresAt

/-- The status writes of the reconciler, by the version they are made from. -/
inductive StatusWrite (reading : Option Int) (v : DatabaseBranch) : DatabaseBranchStatus → Prop
  | creating : v.deletionTimestamp = none → v.Protected → v.status.phase ≠ .ready →
      StatusWrite reading v { v.status with phase := .creating }
  | ready {dbInfo : BranchEndpoint} {externalHost : String} {expires : Option Int} :
      v.deletionTimestamp = none → v.Protected → v.status.phase = .creating →
      Expiry reading v expires → StatusWrite reading v (readyStatus dbInfo externalHost expires)
  | createError {message : String} : v.deletionTimestamp = none → v.Protected →
      v.status.phase = .creating → CreationError message →
      StatusWrite reading v { v.status with phase := .error, message }
  | deleting : v.deletionTimestamp.isSome → v.Protected →
      StatusWrite reading v { v.status with phase := .deleting }
  | deleteError {message : String} : v.deletionTimestamp.isSome → v.Protected →
      v.status.phase = .deleting → DeletionError message →
      StatusWrite reading v { v.status with phase := .error, message }

theorem StatusWrite.protected {reading : Option Int} {v : DatabaseBranch}
    {st : DatabaseBranchStatus} (h : StatusWrite reading v st) : v.Protected := by
  cases h <;> assumption

/-! ## Successors -/

/-- `b` may be stored in place of `cur`. -/
inductive Succ (cur b : DatabaseBranch) : Prop
  | keep : b.uid = cur.uid → b.status = cur.status →
      (cur.deletionTimestamp.isSome → b.deletionTimestamp.isSome) → Succ cur b
  | write (reading : Option Int) : b.uid = cur.uid →
      b.deletionTimestamp = cur.deletionTimestamp → StatusWrite reading cur b.status → Succ cur b

/-- `c` is `v` or a later version of the same CR. -/
structure Older (v c : DatabaseBranch) : Prop where
  deleting : v.deletionTimestamp.isSome → c.deletionTimestamp.isSome
  ready : v.status.phase = .ready → c.status.phase = .ready ∨ c.deletionTimestamp.isSome
  endpoint : v.status.phase = .ready → c.status.endpoint = v.status.endpoint

/-- What holds of every version ever stored. -/
structure Fine (v : DatabaseBranch) : Prop where
  deleting : v.status.phase = .deleting → v.deletionTimestamp.isSome
  expiresAt : v.deletionTimestamp = none → v.status.phase ≠ .ready → v.status.expiresAt = none

theorem Older.refl (v : DatabaseBranch) : Older v v where
  deleting := id
  ready := Or.inl
  endpoint := fun _ => rfl

theorem Older.succ {v cur b : DatabaseBranch} (h : Older v cur) (hs : Succ cur b) : Older v b := by
  cases hs with
  | keep _ hst hdel =>
      refine ⟨fun hv => hdel (h.deleting hv), fun hv => ?_, fun hv => ?_⟩
      · rw [hst]
        exact (h.ready hv).imp id hdel
      · rw [hst]
        exact h.endpoint hv
  | write reading _ hdt hw =>
      -- a version that was Ready leaves room only for the two writes of the deletion flow
      have hready : v.status.phase = .ready →
          b.deletionTimestamp.isSome ∧ b.status.endpoint = cur.status.endpoint := by
        intro hv
        have hcur := h.ready hv
        rw [hdt]
        generalize b.status = st at hw
        cases hw with
        | creating hnone _ hne => simp [hnone, hne] at hcur
        | ready hnone _ hphase _ => simp [hnone, hphase] at hcur
        | createError hnone _ hphase _ => simp [hnone, hphase] at hcur
        | deleting hsome _ => exact ⟨hsome, rfl⟩
        | deleteError hsome _ _ _ => exact ⟨hsome, rfl⟩
      refine ⟨fun hv => ?_, fun hv => Or.inr (hready hv).1, fun hv => ?_⟩
      · rw [hdt]
        exact h.deleting hv
      · exact (hready hv).2.trans (h.endpoint hv)

theorem Fine.succ {cur b : DatabaseBranch} (h : Fine cur) (hs : Succ cur b) : Fine b := by
  cases hs with
  | keep _ hst hdel =>
      refine ⟨fun hp => hdel (h.deleting (hst ▸ hp)), ?_⟩
      intro hnone hp
      rw [hst] at hp ⊢
      refine h.expiresAt ?_ hp
      by_contra hcur
      have := hdel (Option.isSome_iff_ne_none.mpr hcur)
      simp [hnone] at this
  | write reading _ hdt hw =>
      constructor
      · intro hp
        rw [hdt]
        generalize b.status = st at hw hp
        cases hw <;> first | assumption | cases hp
      · intro hnone hp
        rw [hdt] at hnone
        generalize b.status = st at hw hp
        cases hw with
        | creating _ _ hne => exact h.expiresAt hnone hne
        | ready _ _ _ _ => exact absurd rfl hp
        | createError _ _ hphase _ => exact h.expiresAt hnone (by simp [hphase])
        | deleting hsome _ => simp [hnone] at hsome
        | deleteError hsome _ _ _ => simp [hnone] at hsome

theorem Succ.uid {cur b : DatabaseBranch} (h : Succ cur b) : b.uid = cur.uid := by
  cases h <;> assumption

/-! ## The history of a CR name -/

/-- What every run keeps true of the CRs of a name. -/
structure Inv (w : World) : Prop where
  wf : w.crs.WF (·.resourceVersion)
  uid_lt : ∀ v ∈ w.crs.versions, v.uid < w.nextUID
  fine : ∀ v ∈ w.crs.versions, Fine v
  older : ∀ v ∈ w.crs.versions, ∀ cur, w.crs.obj = some cur → v.uid = cur.uid → Older v cur

/-- How one move may change the stored CR. -/
inductive Change (w w' : World) : Prop
  | keep : w'.crs = w.crs → w'.nextUID = w.nextUID → Change w w'
  | advance (n : Nat) : w'.crs = w.crs.advance n → w.nextUID ≤ w'.nextUID → Change w w'
  | create {b : DatabaseBranch} : w.crs.obj = none → b.uid = w.nextUID → b.status = {} →
      b.deletionTimestamp = none → w'.crs = (w.store b).crs → w'.nextUID = w.nextUID + 1 →
      Change w w'
  | succ {cur b : DatabaseBranch} : w.crs.obj = some cur → Succ cur b →
      w'.crs = (w.store b).crs → w'.nextUID = w.nextUID → Change w w'
  | remove : w'.crs = w.crs.clear → w'.nextUID = w.nextUID → Change w w'

theorem Inv.of_init {w : World} (h : Initial w) : Inv w where
  wf :=
    { mem := fun v hv => by simp [h.obj] at hv
      lt := fun v hv => by simp [h.versions] at hv
      inj := fun v hv => by simp [h.versions] at hv }
  uid_lt := fun v hv => by simp [h.versions] at hv
  fine := fun v hv => by simp [h.versions] at hv
  older := fun v hv => by simp [h.versions] at hv

/-- Storing a new version is fine if it continues every version of its UID. -/
theorem Inv.store {w w' : World} (h : Inv w) {b : DatabaseBranch} (hb : Fine b)
    (hold : ∀ v ∈ w.crs.versions, v.uid = b.uid → Older v b)
    (hcrs : w'.crs = (w.store b).crs) (huid : w.nextUID ≤ w'.nextUID) (hlt : b.uid < w'.nextUID) :
    Inv w' where
  wf := by
    rw [hcrs]
    show (w.crs.push fun n => { b with resourceVersion := n }).WF _
    exact h.wf.push fun _ => rfl
  uid_lt := by
    rw [hcrs]
    intro v hv
    rcases List.mem_cons.mp hv with rfl | hv
    · exact hlt
    · exact Nat.lt_of_lt_of_le (h.uid_lt v hv) huid
  fine := by
    rw [hcrs]
    intro v hv
    rcases List.mem_cons.mp hv with rfl | hv
    · exact ⟨hb.deleting, hb.expiresAt⟩
    · exact h.fine v hv
  older := by
    rw [hcrs]
    intro v hv cur hcur he
    cases hcur
    rcases List.mem_cons.mp hv with rfl | hv
    · exact .refl _
    · have := hold v hv he
      exact ⟨this.deleting, this.ready, this.endpoint⟩

theorem Inv.change {w w' : World} (h : Inv w) (hc : Change w w') : Inv w' := by
  cases hc with
  | keep hcrs huid =>
      exact ⟨hcrs ▸ h.wf, hcrs ▸ huid ▸ h.uid_lt, hcrs ▸ h.fine, hcrs ▸ h.older⟩
  | advance n hcrs huid =>
      refine ⟨hcrs ▸ h.wf.advance n, ?_, ?_, ?_⟩
      · rw [hcrs]
        exact fun v hv => Nat.lt_of_lt_of_le (h.uid_lt v hv) huid
      · rw [hcrs]
        exact h.fine
      · rw [hcrs]
        exact h.older
  | @create b hnone hb hst hdt hcrs huid =>
      refine h.store ⟨fun hp => ?_, fun _ _ => ?_⟩ (fun v hv he => ?_) hcrs (by omega) (by omega)
      · simp [hst] at hp
      · rw [hst]
      · have := h.uid_lt v hv
        omega
  | @succ cur b hcur hs hcrs huid =>
      have hmem := h.wf.mem cur hcur
      have hlt := h.uid_lt cur hmem
      refine h.store ((h.fine cur hmem).succ hs) (fun v hv he => ?_) hcrs (by omega) ?_
      · exact (h.older v hv cur hcur (he.trans hs.uid)).succ hs
      · rw [hs.uid]
        omega
  | remove hcrs huid =>
      refine ⟨hcrs ▸ h.wf.clear, ?_, ?_, ?_⟩
      · rw [hcrs, huid]
        exact h.uid_lt
      · rw [hcrs]
        exact h.fine
      · rw [hcrs]
        exact fun _ _ _ hcur => nomatch hcur

/-- Versions are never forgotten. -/
theorem Change.versions {w w' : World} (h : Change w w') : w.crs.versions ⊆ w'.crs.versions := by
  cases h with
  | keep hcrs _ => rw [hcrs]; exact List.Subset.refl _
  | advance _ hcrs _ => rw [hcrs]; exact List.Subset.refl _
  | create _ _ _ _ hcrs _ => rw [hcrs]; exact List.subset_cons_self _ _
  | succ _ _ hcrs _ => rw [hcrs]; exact List.subset_cons_self _ _
  | remove hcrs _ => rw [hcrs]; exact List.Subset.refl _

end BranchDB.Operator

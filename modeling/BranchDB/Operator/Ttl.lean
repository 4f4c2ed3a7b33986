/-
# `BranchDB.Operator.Ttl` — when an expired branch is deleted

Runs in which nobody edits a spec.  What is known of the versions of a CR is then
`Timed`: they agree on the spec and, once Ready, on the expiry; the expiry was computed
from the clock reading of the Reconcile that wrote Ready; and a Delete is issued only
past it.  So a Delete comes at least TTLHours hours after that reading, if the product
`time.Duration(TTLHours) * time.Hour` is what it says.  It is up to `maxHours`, and for
no larger TTL: then the branch can be deleted too early (`ttlHonoured_iff`).
-/
import BranchDB.Operator.Healthy

namespace BranchDB.Operator

open Concur

variable {S : Setting}

/-! ## New versions -/

/-- What `replace` adds to the versions. -/
theorem World.mem_replace {w : World} {cur new v : DatabaseBranch}
    (hv : v ∈ (w.replace cur new).2.crs.versions) :
    v ∈ w.crs.versions ∨ (w.replace cur new = (v, w.store new) ∧ v = w.stamped new) := by
  have hr := w.replaced cur new
  generalize w.replace cur new = served at hr hv
  cases hr with
  | same | removed => exact Or.inl hv
  | stored =>
      rcases List.mem_cons.mp hv with rfl | hv
      · exact Or.inr ⟨rfl, rfl⟩
      · exact Or.inl hv

/-- A version stored between `w` and `w'`: of a fresh CR, or a successor of the one stored. -/
inductive Stored (w w' : World) (v : DatabaseBranch) : Prop
  | fresh : v.uid = w.nextUID → v.status = {} → Stored w w' v
  | keep {cur : DatabaseBranch} : w.crs.obj = some cur → v.uid = cur.uid → v.spec = cur.spec →
      v.status = cur.status → Stored w w' v
  | write {cur : DatabaseBranch} : w.crs.obj = some cur → v.uid = cur.uid → v.spec = cur.spec →
      StatusWrite w.reading cur v.status → .statusWritten w.run cur v w.reading ∈ w'.log →
      Stored w w' v

/-- Every version in `w'` was there in `w`, or is the one now stored. -/
def Stores (w w' : World) : Prop :=
  ∀ v ∈ w'.crs.versions, v ∈ w.crs.versions ∨ (w'.crs.obj = some v ∧ Stored w w' v)

theorem stores_same {w w' : World} (h : w'.crs.versions = w.crs.versions) : Stores w w' :=
  fun _ hv => Or.inl (h ▸ hv)

/-- What is logged meanwhile does not matter. -/
theorem Stores.of_log {w w₁ w' : World} (h : Stores w w₁) (hcrs : w'.crs = w₁.crs)
    (hlog : w₁.log ⊆ w'.log) : Stores w w' := by
  unfold Stores
  rw [hcrs]
  refine fun v hv => (h v hv).imp id fun ⟨hobj, hst⟩ => ⟨hobj, ?_⟩
  cases hst with
  | fresh huid hst => exact .fresh huid hst
  | keep hcur huid hspec hst => exact .keep hcur huid hspec hst
  | write hcur huid hspec hw hev => exact .write hcur huid hspec hw (hlog hev)

theorem Stores.of_record {w w' : World} {e : Event} (h : Stores (w.record e) w') : Stores w w' := by
  refine fun v hv => (h v hv).imp id fun ⟨hobj, hst⟩ => ⟨hobj, ?_⟩
  cases hst with
  | fresh huid hst => exact .fresh huid hst
  | keep hcur huid hspec hst => exact .keep hcur huid hspec hst
  | write hcur huid hspec hw hev => exact .write hcur huid hspec hw hev

theorem stores_serveDelete (w : World) : Stores w (serveDelete w).2 := by
  refine serveDelete_elim (P := Stores w) (stores_same rfl) ?_
  intro cur hcur v hv
  refine (World.mem_replace hv).imp id fun ⟨hrep, hst⟩ => ?_
  simp only [hrep]
  exact ⟨congrArg some hst.symm, .keep hcur (hst ▸ rfl) (hst ▸ rfl) (hst ▸ rfl)⟩

/-- No CR keeps its UID and changes its spec. -/
def SpecKept (w w' : World) : Prop :=
  ∀ cur cur', w.crs.obj = some cur → w'.crs.obj = some cur' → cur'.uid = cur.uid →
    cur'.spec = cur.spec

theorem Env.stores {w w' : World} (h : Env S w w') (hspec : SpecKept w w') : Stores w w' := by
  cases h with
  | create spec finalizers hnone =>
      intro v hv
      rcases List.mem_cons.mp hv with rfl | hv
      · exact Or.inr ⟨rfl, .fresh rfl rfl⟩
      · exact Or.inl hv
  | @edit cur spec finalizers hcur _ _ =>
      intro v hv
      refine (World.mem_replace hv).imp id fun ⟨hrep, hst⟩ => ?_
      simp only [hrep] at hspec ⊢
      have huid : v.uid = cur.uid := hst ▸ rfl
      have hobj : (w.store { cur with spec, finalizers }).crs.obj = some v := congrArg some hst.symm
      exact ⟨hobj, .keep hcur huid (hspec cur v hcur hobj huid) (hst ▸ rfl)⟩
  | delete => exact stores_serveDelete w
  | tick | elsewhere | agent | cluster => exact stores_same rfl

theorem stores_serveStatusUpdate {w : World} (hinv : Inv w) {v : DatabaseBranch}
    (hv : v ∈ w.crs.versions) {st : DatabaseBranchStatus} (hw : StatusWrite w.reading v st) :
    Stores w (serveStatusUpdate w { v with status := st }).2 := by
  unfold serveStatusUpdate
  split
  · exact stores_same rfl
  · next cur hacc =>
    obtain ⟨rfl, hobj⟩ := accept_version hinv hv rfl hacc
    intro v' hv'
    refine (World.mem_replace hv').imp id fun ⟨hrep, hst⟩ => ?_
    simp only [hrep]
    refine ⟨congrArg some hst.symm, .write hobj (hst ▸ rfl) (hst ▸ rfl) ?_ List.mem_cons_self⟩
    exact hst ▸ hw

theorem stores_serveUpdate {w : World} (hinv : Inv w) {v b : DatabaseBranch}
    (hv : v ∈ w.crs.versions) (hb : b.resourceVersion = v.resourceVersion)
    (hspec : b.spec = v.spec) : Stores w (serveUpdate w b).2 := by
  refine serveUpdate_elim (P := Stores w)
    (fun _ _ hs => hs.of_log rfl (List.subset_cons_self _ _)) (stores_same rfl)
    fun cur hacc v' hv' => ?_
  obtain ⟨rfl, hobj⟩ := accept_version hinv hv hb hacc
  refine (World.mem_replace hv').imp id fun ⟨hrep, hst⟩ => ?_
  rw [hrep]
  exact ⟨congrArg some hst.symm,
    .keep hobj (hst ▸ rfl) ((congrArg (·.spec) hst).trans hspec) (hst ▸ rfl)⟩

theorem exec_stores {e : Call} {w w' : World} {r : e.Reply} (hinv : Inv w) (hg : Guar e w)
    (hex : Exec S e w r w') : Stores w w' := by
  cases exec_served hex with
  | same hcrs _ => exact stores_same (congrArg _ hcrs)
  | update b =>
      obtain ⟨v, hv, -, hb⟩ := hg
      rcases hb with ⟨-, rfl⟩ | ⟨-, rfl, -⟩
      · refine stores_serveUpdate hinv hv (resourceVersion_addFinalizer v) ?_
        unfold DatabaseBranch.addFinalizer
        split <;> rfl
      · exact stores_serveUpdate hinv hv rfl rfl
  | statusUpdate b =>
      obtain ⟨v, hv, -, st, hw, rfl⟩ := hg
      exact stores_serveStatusUpdate hinv hv hw
  | delete b => exact (stores_serveDelete _).of_record

/-! ## Versions of a CR whose spec is never edited -/

/-- What is known of the writes of Ready and of the Deletes. -/
def Event.Timed (w : World) : Event → Prop
  | .statusWritten _ _ new reading => new.status.phase = .ready →
      new ∈ w.crs.versions ∧ ∀ t, new.status.expiresAt = some t → 0 < new.spec.ttlHours ∧
        ∃ t₀, reading = some t₀ ∧ t = newTime (t₀ + duration new.spec.ttlHours hour)
  | .deleteIssued _ b clock => b ∈ w.crs.versions ∧ b.status.phase = .ready ∧
      ∃ t, b.status.expiresAt = some t ∧ t ≤ newTime clock
  | _ => True

theorem Event.Timed.mono {w w' : World} {ev : Event} (h : ev.Timed w)
    (hsub : w.crs.versions ⊆ w'.crs.versions) : ev.Timed w' := by
  cases ev with
  | statusWritten run old new reading => exact fun hready => ⟨hsub (h hready).1, (h hready).2⟩
  | deleteIssued run b clock => exact ⟨hsub h.1, h.2⟩
  | createClone | start | stopped | cloneDeleted | finalizerRemoved => exact trivial

/-- What is known of the versions of a name in a run without edits. -/
structure Timed (w : World) : Prop where
  spec : ∀ v ∈ w.crs.versions, ∀ v' ∈ w.crs.versions, v.uid = v'.uid → v.spec = v'.spec
  expiresAt : ∀ v ∈ w.crs.versions, ∀ v' ∈ w.crs.versions, v.uid = v'.uid →
    v.status.phase = .ready → v'.status.phase = .ready → v.status.expiresAt = v'.status.expiresAt
  recorded : ∀ v ∈ w.crs.versions, v.status.phase = .ready →
    ∃ run old new reading, .statusWritten run old new reading ∈ w.log ∧ new.uid = v.uid ∧
      new.status.phase = .ready
  events : ∀ ev ∈ w.log, ev.Timed w

/-- Versions stored without editing a spec agree with the older ones. -/
theorem Timed.spec_stores {w w' : World} (h : Timed w) (hinv : Inv w) (hst : Stores w w') :
    ∀ v ∈ w'.crs.versions, ∀ v' ∈ w'.crs.versions, v.uid = v'.uid → v.spec = v'.spec := by
  have hnew : ∀ v, Stored w w' v → ∀ v' ∈ w.crs.versions, v.uid = v'.uid → v.spec = v'.spec := by
    intro v hv v' hv' huid
    cases hv with
    | fresh hfresh _ =>
        have := hinv.uid_lt v' hv'
        omega
    | keep hcur hu hspec _ | write hcur hu hspec _ _ =>
        exact hspec.trans (h.spec _ (hinv.wf.mem _ hcur) v' hv' (hu.symm.trans huid))
  intro v hv v' hv' huid
  rcases hst v hv with hold | ⟨hobj, hs⟩ <;> rcases hst v' hv' with hold' | ⟨hobj', hs'⟩
  · exact h.spec v hold v' hold' huid
  · exact (hnew v' hs' v hold huid.symm).symm
  · exact hnew v hs v' hold' huid
  · rw [hobj, Option.some.injEq] at hobj'
    rw [hobj']

/-- Nor does the expiry of a Ready branch change. -/
theorem Timed.expiresAt_stores {w w' : World} (h : Timed w) (hinv' : Inv w') (hst : Stores w w') :
    ∀ v ∈ w'.crs.versions, ∀ v' ∈ w'.crs.versions, v.uid = v'.uid → v.status.phase = .ready →
      v'.status.phase = .ready → v.status.expiresAt = v'.status.expiresAt := by
  have hnew : ∀ v, w'.crs.obj = some v → ∀ v' ∈ w'.crs.versions, v'.uid = v.uid →
      v'.status.phase = .ready → v.status.expiresAt = v'.status.expiresAt := by
    intro v hobj v' hv' huid hready
    exact congrArg (·.2.2.2.2) ((hinv'.older v' hv' v hobj huid).endpoint hready)
  intro v hv v' hv' huid hready hready'
  rcases hst v hv with hold | ⟨hobj, -⟩
  · rcases hst v' hv' with hold' | ⟨hobj', -⟩
    · exact h.expiresAt v hold v' hold' huid hready hready'
    · exact (hnew v' hobj' v hv huid hready).symm
  · exact hnew v hobj v' hv' huid.symm hready'

theorem Timed.recorded_stores {w w' : World} (h : Timed w) (hinv : Inv w) (hst : Stores w w')
    (hlog : w.log ⊆ w'.log) : ∀ v ∈ w'.crs.versions, v.status.phase = .ready →
      ∃ run old new reading, .statusWritten run old new reading ∈ w'.log ∧ new.uid = v.uid ∧
        new.status.phase = .ready := by
  intro v hv hready
  have hold : ∀ v₀ ∈ w.crs.versions, v₀.status.phase = .ready → v₀.uid = v.uid →
      ∃ run old new reading, .statusWritten run old new reading ∈ w'.log ∧ new.uid = v.uid ∧
        new.status.phase = .ready := by
    intro v₀ hv₀ hready₀ huid
    obtain ⟨run, old, new, reading, hev, hu, hp⟩ := h.recorded v₀ hv₀ hready₀
    exact ⟨run, old, new, reading, hlog hev, hu.trans huid, hp⟩
  rcases hst v hv with hv | ⟨-, hs⟩
  · exact hold v hv hready rfl
  · cases hs with
    | fresh _ hst => simp [hst] at hready
    | keep hcur hu _ hst => exact hold _ (hinv.wf.mem _ hcur) (hst ▸ hready) hu.symm
    | @write cur _ _ _ _ hev => exact ⟨_, cur, v, _, hev, rfl, hready⟩

theorem Timed.next {w w' : World} (h : Timed w) (hinv : Inv w) (hinv' : Inv w')
    (hst : Stores w w') (hsub : w.crs.versions ⊆ w'.crs.versions) (hlog : w.log ⊆ w'.log)
    (hev : ∀ ev ∈ w'.log, ev ∈ w.log ∨ ev.Timed w') : Timed w' where
  spec := h.spec_stores hinv hst
  expiresAt := h.expiresAt_stores hinv' hst
  recorded := h.recorded_stores hinv hst hlog
  events ev he := (hev ev he).elim (fun hold => (h.events ev hold).mono hsub) id

/-- A write of Ready records the expiry computed from the clock reading, or none. -/
theorem StatusWrite.expiry {reading : Option Int} {v : DatabaseBranch} {st : DatabaseBranchStatus}
    (hv : Fine v) (h : StatusWrite reading v st) (hready : st.phase = .ready) {t : Int}
    (ht : st.expiresAt = some t) : 0 < v.spec.ttlHours ∧
      ∃ t₀, reading = some t₀ ∧ t = newTime (t₀ + duration v.spec.ttlHours hour) := by
  cases h with
  | @ready _ _ expires hnone _ hphase hexp =>
      have ht : expires = some t := ht
      cases hexp with
      | ttl hpos hr => exact ⟨hpos, _, hr, (Option.some.inj ht).symm⟩
      | none _ => simp [hv.expiresAt hnone (by simp [hphase])] at ht
  | creating | createError | deleting | deleteError => cases hready

theorem serveStatusUpdate_timed {w : World} (hinv : Inv w) {v : DatabaseBranch}
    (hv : v ∈ w.crs.versions) {st : DatabaseBranchStatus} (hw : StatusWrite w.reading v st) :
    ∀ ev ∈ (serveStatusUpdate w { v with status := st }).2.log,
      ev ∈ w.log ∨ ev.Timed (serveStatusUpdate w { v with status := st }).2 := by
  unfold serveStatusUpdate
  split
  · exact fun _ => Or.inl
  · next cur hacc =>
    obtain ⟨rfl, hobj⟩ := accept_version hinv hv rfl hacc
    intro ev hev
    rcases List.mem_cons.mp hev with rfl | hev
    · refine Or.inr fun hready => ⟨?_, fun t ht => ?_⟩
      · have hnew : DatabaseBranch.Protected { cur with status := st } := hw.protected
        rcases w.replaced_protected cur hnew with ⟨-, hrep⟩ | hrep
        · simp only [hrep]
          exact hv
        · simp only [hrep]
          exact List.mem_cons_self
      · dsimp only at hready ht ⊢
        rw [w.replace_fst] at hready ht ⊢
        exact hw.expiry (hinv.fine cur hv) hready ht
    · exact Or.inl ((sameRun_replace w cur _).log ▸ hev)

theorem exec_timed {e : Call} {w w' : World} {r : e.Reply} (hinv : Inv w) (hg : Guar e w)
    (hex : Exec S e w r w') : ∀ ev ∈ w'.log, ev ∈ w.log ∨ ev.Timed w' := by
  have hgrown := exec_grown hex
  intro ev hev
  rcases hgrown with hlog | ⟨ev', hl, hlog⟩
  · exact Or.inl (hlog ▸ hev)
  · rw [hlog] at hev
    rcases List.mem_cons.mp hev with rfl | hev
    · cases hl with
      | @statusWritten b cur _ =>
          obtain ⟨v, hv, -, st, hw, rfl⟩ := hg
          have hev' := serveStatusUpdate_timed hinv hv hw
          refine Outcome.elim (P := fun w' => _ ∈ w'.log → _ ∈ w.log ∨ Event.Timed w' _) hex
            Or.inl (hev' _) (hlog ▸ List.mem_cons_self)
      | @deleteIssued b =>
          have hsub := (exec_change hinv hg hex).versions
          obtain ⟨hb, -, hready, t, reading, ht, hclock, ha⟩ := hg
          refine Or.inr ⟨hsub hb, hready, t, ht, ?_⟩
          exact Int.le_trans (newTime_le_of_after ha) (newTime_mono hclock)
      | finalizerRemoved | createClone | cloneDeleted | start | stopped => exact Or.inr trivial
    · exact Or.inl hev

/-! ## Runs without edits -/

/-- The runs of the reconciler in which no spec is edited. -/
def unedited (S : Setting) (externalHost : String) : System Call Call.Reply World Outcome :=
  (system S (reconcile (reconciler externalHost) S.name)).restrict (fun _ _ _ _ => True) SpecKept

theorem timed_preserved (externalHost : String) :
    (unedited S externalHost).Preserved contract Timed where
  env w w' hinv hJ henv := by
    obtain ⟨henv, hspec⟩ := (show Env S w w' ∧ SpecKept w w' from henv)
    have hlog := henv.sameRun.log
    refine hJ.next hinv (Inv.change hinv henv.change) (henv.stores hspec) henv.change.versions ?_ ?_
    · exact fun _ hev => hlog ▸ hev
    · exact fun _ hev => Or.inl (hlog ▸ hev)
  start w w' _ hJ hst := by
    cases (show w' = _ from hst)
    exact ⟨hJ.spec, hJ.expiresAt, hJ.recorded, hJ.events⟩
  call e w r w' hinv hJ hg hex := by
    have hex : Exec S e w r w' := hex.1
    have hchange := exec_change hinv hg hex
    refine hJ.next hinv (Inv.change hinv hchange) (exec_stores hinv hg hex) hchange.versions ?_
      (exec_timed hinv hg hex)
    rcases exec_grown hex with hlog | ⟨ev, -, hlog⟩
    · exact fun _ hev => hlog ▸ hev
    · exact hlog ▸ List.subset_cons_self ev w.log

theorem timed_reach {externalHost : String} {c : Config Call Call.Reply World Outcome}
    (hc : (unedited S externalHost).Reach c) : Timed c.state := by
  have hsound : (unedited S externalHost).Sound contract :=
    (reconcile_sound S externalHost).restrict
  refine (timed_preserved externalHost).reach hsound (fun w hinit => ?_) hc
  have hinit : Initial w := hinit
  constructor <;> simp [hinit.versions, hinit.log]

/-! ## The TTL -/

/-- A Delete at `clock` of the CR `uid`, whose TTL is `h` hours, is due: the TTL is set,
the CR was recorded as Ready, and that was at least `h` hours ago. -/
def Due (h : Int) (uid : Nat) (clock : Int) (log : List Event) : Prop :=
  0 < h ∧
  (∃ run old new reading, .statusWritten run old new reading ∈ log ∧ new.uid = uid ∧
    new.status.phase = .ready) ∧
  ∀ run old new reading, .statusWritten run old new reading ∈ log → new.uid = uid →
    new.status.phase = .ready → ∃ t, reading = some t ∧ newTime t + h * 3600 ≤ newTime clock

/-- In every run without edits, every Delete of a CR whose TTL is `h` hours is due. -/
def TtlHonoured (h : Int) : Prop :=
  ∀ (S : Setting) (externalHost : String) (c : Config Call Call.Reply World Outcome),
    (unedited S externalHost).Reach c →
    ∀ run b clock, .deleteIssued run b clock ∈ c.state.log → b.spec.ttlHours = h →
      Due h b.uid clock c.state.log

theorem Timed.due {w : World} (hw : Timed w) {run : Nat} {b : DatabaseBranch} {clock : Int}
    (hev : .deleteIssued run b clock ∈ w.log) (hmax : b.spec.ttlHours ≤ maxHours) :
    Due b.spec.ttlHours b.uid clock w.log := by
  obtain ⟨hb, hready, t, ht, hclock⟩ := hw.events _ hev
  have hwritten : ∀ run old new reading, .statusWritten run old new reading ∈ w.log →
      new.uid = b.uid → new.status.phase = .ready → 0 < b.spec.ttlHours ∧
        ∃ t₀, reading = some t₀ ∧ t = newTime (t₀ + duration b.spec.ttlHours hour) := by
    intro run old new reading hwr huid hphase
    obtain ⟨hnew, hexp⟩ := hw.events _ hwr hphase
    rw [← hw.spec new hnew b hb huid]
    exact hexp t ((hw.expiresAt new hnew b hb huid hphase hready).trans ht)
  obtain ⟨run', old, new, reading, hwr, huid, hphase⟩ := hw.recorded b hb hready
  have hpos := (hwritten run' old new reading hwr huid hphase).1
  refine ⟨hpos, ⟨run', old, new, reading, hwr, huid, hphase⟩, ?_⟩
  intro run old new reading hwr huid hphase
  obtain ⟨-, t₀, hr, rfl⟩ := hwritten run old new reading hwr huid hphase
  refine ⟨t₀, hr, ?_⟩
  rw [duration_hours (Int.le_of_lt hpos) hmax, newTime_add_hours] at hclock
  exact hclock

/-! ## A TTL that is too long -/

/-- An undisturbed Reconcile of an expired branch issues the Delete. -/
theorem reconciled_expired {externalHost : String} {w : World} {b : DatabaseBranch}
    {vs : List DatabaseBranch} {t : Int} (hobj : w.crs.obj = some b)
    (hvs : w.crs.versions = b :: vs) (hdel : b.deletionTimestamp = none)
    (hphase : b.status.phase = .ready) (ht : b.status.expiresAt = some t)
    (ha : after w.clock t = true) :
    (reconciled S (reconcile (reconciler externalHost) S.name) w).log =
      .deleteIssued (w.run + 1) b w.clock :: w.log := by
  have hdelete : reconciled S (reconcile (reconciler externalHost) S.name) w =
      (serveDelete ({ w.started with handling := some b.uid, reading := some w.clock }.record
        (.deleteIssued (w.run + 1) b w.clock))).2 := by
    simp [reconciled, reconcile, reconciler, Prog.perform_bind, Prog.pure_eq_ret, Prog.run, serve,
      serveClient, serveGet, World.started, hobj, hvs, hdel, reconcileLive, expired, ht, hphase, ha,
      deleteExpired]
    split <;> rfl
  rw [hdelete, (sameRun_serveDelete _).log]
  rfl

/-- A branch created at clock 0 with a TTL of `h` hours is Ready after two Reconciles. -/
theorem demoReady_ttl {h : Int} (hpos : 0 < h) : ∃ b vs old log,
    (demoReady ⟨"base", h, "mysql", ""⟩).crs.obj = some b ∧
    (demoReady ⟨"base", h, "mysql", ""⟩).crs.versions = b :: vs ∧
    (demoReady ⟨"base", h, "mysql", ""⟩).clock = 0 ∧
    (demoReady ⟨"base", h, "mysql", ""⟩).log = .statusWritten 2 old b (some 0) :: log ∧
    b.deletionTimestamp = none ∧ b.spec.ttlHours = h ∧ b.status.phase = .ready ∧
    b.status.expiresAt = some (newTime (duration h hour)) := by
  simp [demoReady, reconciled, demoReconcile, reconcile, reconciler, Prog.perform_bind,
    Prog.pure_eq_ret, Prog.run, serve, serveClient, serveGet, serveUpdate, serveStatusUpdate,
    serveVolume, serveDatabase, accept, created, demo, World.fresh, World.started, World.store,
    World.stamped, World.replace, World.record, Register.push, reconcileLive, expired,
    addFinalizer, DatabaseBranch.addFinalizer, DatabaseBranch.containsFinalizer, createBranch,
    createVolume, startDatabase, recordReady, expiresAt, hpos, markReady, readyStatus]

/-- The same state at another time. -/
def World.atClock (w : World) (clock : Int) : World := { w with clock }

theorem reach_demoReady_at (spec : DatabaseBranchSpec) {clock : Int}
    (hclock : (demoReady spec).clock ≤ clock) :
    (unedited demo "db.example.com").Reach ⟨(demoReady spec).atClock clock, none⟩ := by
  have hok : ∀ w, demoReconcile.Within (serve demo) (fun _ _ => True) w :=
    .of_forall (fun _ _ => trivial) _
  have hcreated : (unedited demo "db.example.com").Reach ⟨created demo spec .fresh, none⟩ :=
    .step (.init World.initial_fresh) (.env ⟨.create _ [] rfl, fun _ _ hcur => nomatch hcur⟩)
  have hready : (unedited demo "db.example.com").Reach ⟨demoReady spec, none⟩ :=
    reach_reconciled_restrict (hok _) (reach_reconciled_restrict (hok _) hcreated)
  refine hready.step (.env ⟨.tick hclock, fun cur cur' hcur hcur' _ => ?_⟩)
  cases hcur.symm.trans hcur'
  rfl

/-- There is a moment past the recorded expiry at which the TTL is not over. -/
theorem exists_early {h : Int} (hmax : maxHours < h) : ∃ clock : Int, 0 ≤ clock ∧
    after clock (newTime (duration h hour)) = true ∧ newTime clock < h * 3600 := by
  have hlt := newTime_duration_lt hmax
  rw [maxHours_eq] at hmax
  refine ⟨max 0 (newTime (duration h hour) * second + 1), Int.le_max_left _ _, ?_, ?_⟩
  · rw [after_iff]
    omega
  · refine Int.ediv_lt_of_lt_mul (by decide) ?_
    rw [show second = 1000000000 from rfl]
    omega

/-- With a TTL whose Duration overflows, a branch can be deleted before its time. -/
theorem not_ttlHonoured {h : Int} (hmax : maxHours < h) : ¬ TtlHonoured h := by
  intro hall
  have hpos : 0 < h := Int.lt_trans (by decide) hmax
  obtain ⟨b, vs, old, log, hobj, hvs, hclock, hlog, hdel, httl, hphase, hexp⟩ := demoReady_ttl hpos
  obtain ⟨clock, hle, hafter, hearly⟩ := exists_early hmax
  have hrev := reach_reconciled_restrict (.of_forall (fun _ _ => trivial) demoReconcile _)
    (reach_demoReady_at ⟨"base", h, "mysql", ""⟩ (hclock ▸ hle))
  have hlog' : (reconciled demo demoReconcile
      ((demoReady ⟨"base", h, "mysql", ""⟩).atClock clock)).log = _ :=
    reconciled_expired hobj hvs hdel hphase hexp hafter
  have hdue := hall demo "db.example.com" _ hrev _ b clock
    (hlog'.symm ▸ List.mem_cons_self) httl
  have hwritten : .statusWritten 2 old b (some 0) ∈ (reconciled demo demoReconcile
      ((demoReady ⟨"base", h, "mysql", ""⟩).atClock clock)).log := by
    rw [hlog']
    exact List.mem_cons_of_mem _ (hlog ▸ List.mem_cons_self)
  obtain ⟨t, ht, hlate⟩ := hdue.2.2 2 old b (some 0) hwritten rfl hphase
  cases ht
  rw [show newTime 0 = 0 from rfl] at hlate
  omega

/-! ## Main results -/

/-- The TTL of `h` hours is honoured in every run exactly if `h` hours fit a Duration. -/
theorem ttlHonoured_iff (h : Int) : TtlHonoured h ↔ h ≤ maxHours := by
  constructor
  · intro hall
    by_contra hmax
    exact not_ttlHonoured (Int.not_le.mp hmax) hall
  · rintro hmax S externalHost c hc run b clock hev rfl
    exact (timed_reach hc).due hev hmax

/-- 5124096 hours come out as 25 minutes. -/
theorem ttl_too_long : ¬ TtlHonoured 5124096 := not_ttlHonoured (by decide)

example : newTime (duration 5124096 hour) = 25 * 60 + 26 := by decide

end BranchDB.Operator

/-
# `BranchDB.Operator.Named` — the clones of a CR are named like it

The reconciler names a clone by the object that it was given last, and every version of a CR bears
the name it is stored under.  So of all that a volume provider can be asked it asks for two things,
to create and to delete the clone of that name (`asks_by_name`).
-/
import BranchDB.Operator.Sound

namespace BranchDB.Operator

open Concur

variable {S : Setting} {externalHost : String} {w w' : World}

/-- Whatever there was under a name bears it. -/
structure Bears (name : String) (w : World) : Prop where
  obj : ∀ b, w.crs.obj = some b → b.name = name
  versions : ∀ b ∈ w.crs.versions, b.name = name

theorem Bears.of_crs {name : String} (h : Bears name w) (hcrs : w'.crs = w.crs) : Bears name w' :=
  ⟨hcrs ▸ h.obj, hcrs ▸ h.versions⟩

theorem Bears.store {name : String} (h : Bears name w) {b : DatabaseBranch} (hb : b.name = name) :
    Bears name (w.store b) := by
  constructor
  · intro b' hb'
    obtain rfl := Option.some.inj hb'
    exact hb
  · intro b' hb'
    rcases List.mem_cons.mp hb' with rfl | hb'
    · exact hb
    · exact h.versions b' hb'

theorem Bears.replace {name : String} (h : Bears name w) (cur : DatabaseBranch)
    {new : DatabaseBranch} (hnew : new.name = name) : Bears name (w.replace cur new).2 := by
  have hr := w.replaced cur new
  generalize w.replace cur new = served at hr
  cases hr with
  | same => exact h
  | removed => exact ⟨nofun, h.versions⟩
  | stored => exact h.store hnew

theorem Bears.serveDelete {name : String} (h : Bears name w) : Bears name (serveDelete w).2 := by
  refine serveDelete_elim (P := Bears name) h ?_
  intro cur hcur
  have hnew : ({ cur with deletionTimestamp := some (newTime w.clock) } : DatabaseBranch).name =
      name := h.obj cur hcur
  exact h.replace cur hnew

theorem Bears.env (h : Bears S.name w) (henv : Env S w w') : Bears S.name w' := by
  cases henv with
  | create spec finalizers _ =>
      have hnew : Bears S.name (w.store
          { name := S.name, uid := w.nextUID, resourceVersion := 0, spec, finalizers }) :=
        h.store rfl
      exact hnew.of_crs rfl
  | @edit cur spec finalizers hcur _ _ =>
      have hnew : ({ cur with spec := spec, finalizers := finalizers } : DatabaseBranch).name =
          S.name := h.obj cur hcur
      exact h.replace cur hnew
  | delete => exact h.serveDelete
  | elsewhere version _ => exact ⟨h.obj, h.versions⟩
  | tick | agent | cluster => exact h.of_crs rfl

/-! ## Calls -/

theorem Bears.exec (h : Bears S.name w) {e : Call} {r : e.Reply} (hex : Exec S e w r w') :
    Bears S.name w' := by
  have hrecord : ∀ w e, Bears S.name w → Bears S.name (w.record e) :=
    fun _ _ h => h.of_crs rfl
  cases exec_served hex with
  | same hcrs _ => exact h.of_crs hcrs
  | update b =>
      refine serveUpdate_elim (P := Bears S.name) hrecord h fun cur hacc => ?_
      have hnew : ({ cur with spec := b.spec, finalizers := b.finalizers } : DatabaseBranch).name =
          S.name := h.obj cur (accept_ok hacc).1
      exact h.replace cur hnew
  | statusUpdate b =>
      refine serveStatusUpdate_elim (P := Bears S.name) hrecord h fun cur hacc => ?_
      have hnew : ({ cur with status := b.status } : DatabaseBranch).name = S.name :=
        h.obj cur (accept_ok hacc).1
      exact h.replace cur hnew
  | delete b => exact (hrecord w _ h).serveDelete

/-- The object an answer brings along bears the name. -/
def Answer (name : String) : (e : Call) → e.Reply → Prop
  | .client (.get _), r | .client (.update _), r | .client (.statusUpdate _), r =>
      ∀ b, r = .ok b → b.name = name
  | .client (.delete _), _ | .now, _ | .volume _, _ | .database _, _ | .k8s _, _ => True

/-- What is replaced is answered. -/
theorem name_replace (w : World) (cur new : DatabaseBranch) :
    (w.replace cur new).1.name = new.name := by
  rw [w.replace_fst cur new]

theorem name_serveUpdate {name : String} (h : Bears name w) {b b' : DatabaseBranch}
    (hok : (serveUpdate w b).1 = .ok b') : b'.name = name := by
  unfold serveUpdate at hok
  split at hok
  · cases hok
  · next cur hacc =>
    have hname : cur.name = name := h.obj cur (accept_ok hacc).1
    dsimp only at hok
    split at hok
    · cases hok
      exact (name_replace w cur _).trans hname
    · cases hok
      exact (name_replace w cur _).trans hname

theorem name_serveStatusUpdate {name : String} (h : Bears name w) {b b' : DatabaseBranch}
    (hok : (serveStatusUpdate w b).1 = .ok b') : b'.name = name := by
  unfold serveStatusUpdate at hok
  split at hok
  · cases hok
  · next cur hacc =>
    cases hok
    exact (name_replace w cur _).trans (h.obj cur (accept_ok hacc).1)

/-- A request that is answered with success was served. -/
theorem ok_of_outcome {σ ε β : Type} {transport : ε → Prop} {s s' : σ} {served : Except ε β × σ}
    {b : β} (h : Concur.Outcome transport s served (.ok b) s') : served.1 = .ok b := by
  generalize hr : Except.ok b = r at h
  cases h with
  | answered => rfl
  | dropped | lost => cases hr

theorem answer_of_exec (h : Bears S.name w) {e : Call} {r : e.Reply} (hex : Exec S e w r w') :
    Answer S.name e r := by
  cases e with
  | now | volume | database | k8s => exact trivial
  | client c =>
      cases c with
      | delete b => exact trivial
      | get name =>
          rintro b rfl
          cases (show Got w (.ok b) w' from hex) with
          | version hb => exact h.versions b hb
      | update b =>
          rintro b' rfl
          exact name_serveUpdate h (ok_of_outcome hex)
      | statusUpdate b =>
          rintro b' rfl
          exact name_serveStatusUpdate h (ok_of_outcome hex)

/-- Of the volume provider only the clone of the name is asked for. -/
def Asks (name : String) : Call → Prop
  | .volume (.createClone _ _ cloneName) | .volume (.deleteClone _ cloneName) => cloneName = name
  | .volume (.takeSnapshot ..) | .volume (.deleteSnapshot ..) | .volume (.listSnapshots _)
  | .volume (.listClones _) | .volume (.gcSnapshots ..) | .volume (.resetDataset _) => False
  | .client _ | .now | .database _ | .k8s _ => True

/-! ## The reconciler -/

section

variable {name : String} {b : DatabaseBranch}

theorem meets_setError (err : GoError) :
    (setError (reconciler externalHost) b err).Meets (Answer name) (Asks name) :=
  .call trivial fun _ _ => .ret

theorem meets_handleDeletion :
    (handleDeletion (reconciler externalHost) b).Meets (Answer name) (Asks name) := by
  unfold handleDeletion
  split
  · exact .ret
  · refine .call trivial ?_
    intro r hr
    cases r with
    | error err => exact .ret
    | ok b =>
        have hname : b.name = name := hr b rfl
        refine .call trivial ?_
        intro r _
        cases r with
        | error err => exact meets_setError _
        | ok =>
            refine .call hname ?_
            intro r _
            cases r with
            | error err => exact meets_setError _
            | ok =>
                refine .call trivial ?_
                intro r _
                cases r with
                | error err => exact .ret
                | ok => exact .ret

theorem meets_recordReady (dbInfo : BranchEndpoint) :
    (recordReady (reconciler externalHost) b dbInfo).Meets (Answer name) (Asks name) := by
  have hmark : ∀ status,
      (markReady (reconciler externalHost) b status).Meets (Answer name) (Asks name) := by
    intro status
    refine .call trivial ?_
    intro r _
    cases r with
    | error err => exact .ret
    | ok => exact .ret
  refine .bind ?_ fun expires => hmark _
  unfold expiresAt
  split
  · exact .call trivial fun _ _ => .ret
  · exact .ret

theorem meets_createBranch :
    (createBranch (reconciler externalHost) b).Meets (Answer name) (Asks name) := by
  refine .call trivial ?_
  intro r hr
  cases r with
  | error err => exact .ret
  | ok b =>
      have hname : b.name = name := hr b rfl
      refine .call hname ?_
      intro r _
      cases r with
      | error err => exact meets_setError _
      | ok vol =>
          refine .call trivial ?_
          intro r _
          cases r with
          | error err => exact meets_setError _
          | ok dbInfo => exact meets_recordReady dbInfo

theorem meets_reconcileLive :
    (reconcileLive (reconciler externalHost) b).Meets (Answer name) (Asks name) := by
  have hexpired : (expired (reconciler externalHost) b).Meets (Answer name) (Asks name) := by
    unfold expired
    split
    · split
      · exact .call trivial fun _ _ => .ret
      · exact .ret
    · exact .ret
  refine .bind hexpired fun past => ?_
  split
  · refine .call trivial ?_
    intro r _
    cases r with
    | error err => exact .ret
    | ok => exact .ret
  · split
    · refine .call trivial ?_
      intro r _
      cases r with
      | error err => exact .ret
      | ok => exact .ret
    · split
      · exact .ret
      · exact meets_createBranch

theorem meets_reconcile :
    (reconcile (reconciler externalHost) name).Meets (Answer name) (Asks name) := by
  refine .call trivial ?_
  intro r _
  cases r with
  | error err => exact .ret
  | ok b =>
      show (if b.deletionTimestamp.isSome then handleDeletion (reconciler externalHost) b
        else reconcileLive (reconciler externalHost) b).Meets (Answer name) (Asks name)
      split
      · exact meets_handleDeletion
      · exact meets_reconcileLive

end

/-! ## Every run -/

def naming (S : Setting) : Contract Call World := ⟨Bears S.name, fun e _ => Asks S.name e⟩

theorem naming_sound (S : Setting) (externalHost : String) :
    (system S (reconcile (reconciler externalHost) S.name)).Sound (naming S) where
  init w hinit := by
    have hinit : Initial w := hinit
    exact ⟨by simp [hinit.obj], by simp [hinit.versions]⟩
  env _ _ hinv henv := Bears.env hinv henv
  start _ _ hinv hst := by
    subst hst
    exact hinv.of_crs rfl
  call _ _ _ _ hinv _ hex := Bears.exec hinv hex
  main p _ w hp _ _ := by
    cases (show p = reconcile (reconciler externalHost) S.name from hp)
    refine System.holds_of_meets meets_reconcile ?_ fun _ _ he => he
    intro e s r s' hinv hex
    exact answer_of_exec hinv hex

/-- In every run the volume provider is asked for the clone of the name, if for anything. -/
theorem asks_by_name {c : Config Call Call.Reply World Outcome}
    (h : (system S (reconcile (reconciler externalHost) S.name)).Reach c) {e : Call}
    (he : c.Issues e) : Asks S.name e :=
  h.guarded (naming_sound S externalHost) he

end BranchDB.Operator
